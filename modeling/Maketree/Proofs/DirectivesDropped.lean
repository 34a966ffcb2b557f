import Mathlib
import Maketree.Proofs.FlattenedParse
/-! Parsing with the conditional directive lines dropped gives the parse with every conditional
flattened, and the same variables. -/
namespace Maketree

open Journal Expansion
open LineStream (Tracks Faulty ReadAhead upcoming upcomingOf)

namespace FileSystem

variable {fs fs' : FileSystem}

theorem lookupNone {l l' : List (String × List UInt8)} (keys : l'.map Prod.fst = l.map Prod.fst) (k : String) :
    l'.lookup k = none ↔ l.lookup k = none := by
  induction l generalizing l' with
  | nil => cases l' <;> simp_all
  | cons e rest ih =>
    obtain _ | ⟨⟨key', v'⟩, rest'⟩ := l'
    · simp at keys
    obtain ⟨key, v⟩ := e
    simp only [List.map_cons, List.cons.injEq] at keys
    obtain ⟨rfl, same⟩ := keys
    simp only [List.lookup]
    split
    · simp
    · exact ih same

theorem entryAtNone (dirs : fs'.directories = fs.directories) (keys : fs'.files.map Prod.fst = fs.files.map Prod.fst)
    (comps : List String) : fs'.entryAt comps = none ↔ fs.entryAt comps = none := by
  unfold entryAt
  rw [dirs]
  split
  · simp
  · simpa using lookupNone keys (keyOf comps)

theorem reachSame (dirs : fs'.directories = fs.directories) (keys : fs'.files.map Prod.fst = fs.files.map Prod.fst)
    (here comps : List String) : fs'.reach here comps = fs.reach here comps := by
  induction comps generalizing here with
  | nil => rfl
  | cons c rest ih =>
    rw [reach, reach]
    split
    · exact ih here
    split
    · exact ih here.dropLast
    -- a component is a directory, a file or missing alike on both systems
    have dir := entryAtDirectory dirs (here ++ [c])
    have none := entryAtNone dirs keys (here ++ [c])
    rcases entry' : fs'.entryAt (here ++ [c]) with _ | _ | content' <;>
      rcases entry : fs.entryAt (here ++ [c]) with _ | _ | content <;> simp_all

theorem locateSame (cwd : fs'.cwd = fs.cwd) (dirs : fs'.directories = fs.directories)
    (keys : fs'.files.map Prod.fst = fs.files.map Prod.fst) : fs'.locate = fs.locate := by
  funext p
  unfold locate
  rw [cwd, reachSame dirs keys]

end FileSystem

namespace Parse

theorem dropsRead {T : Trace} {p : String} {before after : Except OpenFailure (List UInt8)}
    (drops : T.drops p before after = true) : ∃ bytes, after = .ok bytes := by
  cases before <;> cases after <;> simp_all [Trace.drops]

theorem openedPathsFilter (log : List Notice) : openedPaths (log.filter Notice.isFileEvent) = openedPaths log := by
  induction log with
  | nil => rfl
  | cons n rest ih =>
    simp only [openedPaths] at ih ⊢
    rw [List.filter_cons]
    cases n <;> simp [Notice.isFileEvent, Notice.openedPath?, List.filterMap_cons, ih]

def Trace.dropsText (T : Trace) (path before after : String) : Bool :=
  (LogicalLine.expand 0 (Source.ofText after).lines).map Prod.fst ==
    T.standFor path (LogicalLine.expand 0 (Source.ofText before).lines)

theorem flatOfParse {fuel : Nat} {r r₁ : Reader} {log log' : List Notice} {ss : List Statement}
    (parsed : (ExceptT.run ((statements fuel).run r)).run log = (.ok (ss, r₁), log')) :
    ∃ T, (ExceptT.run ((Flat.statements fuel).run r)).run log = (.ok ((Statement.flatten ss, T), r₁), log') := by
  have same := congrArg (fun p : ReadM (List Statement) => (ExceptT.run (p.run r)).run log)
    (Flat.statementsForgets fuel)
  simp only [StateT.run_map, ExceptT.run_map] at same
  rw [show (ExceptT.run ((statements fuel).run r)).run log = (.ok (ss, r₁), log') from parsed] at same
  generalize (ExceptT.run ((Flat.statements fuel).run r)).run log = run at same ⊢
  obtain ⟨_ | ⟨⟨flat, T⟩, r₂⟩, log₂⟩ := run
  · change (Except.map _ (Except.error _), _) = (Except.map _ (Except.ok _), _) at same
    simp [Except.map] at same
  · change (Except.map _ (Except.ok _), _) = (Except.map _ (Except.ok _), _) at same
    simp only [Except.map, Prod.mk.injEq, Except.ok.injEq] at same
    obtain ⟨⟨rfl, rfl⟩, rfl⟩ := same
    exact ⟨T, rfl⟩

namespace Mirror

variable {M : Mirror}

theorem budgetFits (valid : M.Valid) (distinct : (M.opened.map M.files'.locate).Nodup) {r' : Reader}
    {path : String} {ls : List (String × Nat)} (tracks : Tracks r'.stream [(path, ls)])
    (files : r'.stream.files = M.files') :
    1 + 3 * M.budget r' [] ≤ Makefile.fuelFor r'.stream := by
  set L := Limits.ofStream r'.stream
  have root : r'.stream.upcoming.length ≤ r'.stream.pendingLines + 1 := by
    rw [upcomingOf tracks]
    simpa [lines] using rootLines tracks
  -- every file opened is read on the mirror, so it is listed there
  have opened : ∀ p ∈ M.opened, ∃ bytes, M.files'.read p = .ok bytes :=
    fun p mem => dropsRead (valid.drops.edited p mem)
  have few : M.opened.length ≤ M.files'.files.length := by
    refine openFilesBounded distinct fun q mem => ?_
    obtain ⟨bytes, read⟩ := opened q mem
    obtain ⟨key, located, listed⟩ := FileSystem.readLocated read
    exact ⟨key, List.mem_map.mpr ⟨_, listed, rfl⟩, located⟩
  have narrow : ∀ n ∈ M.opened.map M.linesOn, n ≤ L.width := by
    intro n mem
    obtain ⟨p, inOpened, rfl⟩ := List.mem_map.mp mem
    obtain ⟨bytes, read⟩ := opened p inOpened
    obtain ⟨key, -, listed⟩ := FileSystem.readLocated read
    simp only [linesOn, read]
    exact L.wide _ (by simpa [L, Limits.ofStream, files] using listed)
  have sum := List.sum_le_card_nsmul _ _ narrow
  have width : r'.stream.pendingLines + 2 ≤ L.width := by simp [L, Limits.ofStream, foldlLengths]
  have bernoulli := one_add_le_pow_of_two_add_nonneg (a := L.width) (by omega) (r'.stream.files.files.length + 2)
  have fuel : Makefile.fuelFor r'.stream = 4 * (L.width + 1) ^ (r'.stream.files.files.length + 2) + 4 := rfl
  have within : M.opened.length * L.width ≤ r'.stream.files.files.length * L.width :=
    Nat.mul_le_mul_right _ (by rw [files]; exact few)
  simp only [List.length_map, smul_eq_mul] at sum
  simp only [budget, List.length_nil, List.drop_zero]
  rw [fuel, ← add_comm 1 L.width]
  push_cast at bernoulli
  have expand : (r'.stream.files.files.length + 2) * L.width =
      r'.stream.files.files.length * L.width + 2 * L.width := by ring
  omega

theorem Fresh.root (src : List String) :
    M.Fresh [] [] (lines [(M.root, LogicalLine.expand 0 src)]) := by
  refine ⟨?_, by simp, fun x mem => ?_, by simp⟩
  · have image : (lines [(M.root, LogicalLine.expand 0 src)]).map Prod.snd =
        ((LogicalLine.expand 0 src).map Prod.snd).map (Location.mk M.root) := by
      simp [lines]
    rw [image]
    exact (expandNumbers 0 src).map fun a b same => (Location.mk.inj same).2
  · simp only [lines, List.flatMap_cons, List.flatMap_nil, List.append_nil, List.mem_map] at mem
    obtain ⟨_, _, rfl⟩ := mem
    simp

theorem Aligned.start {r r' : Reader} {src src' : List String} (agree : M.Agree r r')
    (tracks : Tracks r.stream [(M.root, LogicalLine.expand 0 src)])
    (tracks' : Tracks r'.stream [(M.root, LogicalLine.expand 0 src')])
    (stands : (LogicalLine.expand 0 src').map Prod.fst = M.T.standFor M.root (LogicalLine.expand 0 src)) :
    M.Aligned [] [] r r' [(M.root, LogicalLine.expand 0 src)] [(M.root, LogicalLine.expand 0 src')] :=
  ⟨agree, tracks, tracks', by simp [texts, Trace.edited, stands], Fresh.root src⟩

theorem readsDropped (valid : M.Valid) (distinct : (M.opened.map M.files.locate).Nodup) {workDir : String}
    {src src' : Source} {s₀ s₀' : LineStream} {closed closed' : List String}
    (ahead : ReadAhead { LineStream.empty M.files workDir with frames := [Frame.ofSource M.root src] } s₀ closed)
    (ahead' : ReadAhead { LineStream.empty M.files' workDir with frames := [Frame.ofSource M.root src'] } s₀' closed')
    (fine : src'.failure = none)
    (stands : (LogicalLine.expand 0 src'.lines).map Prod.fst = M.T.standFor M.root (LogicalLine.expand 0 src.lines))
    {ss : List Statement} {r₁ : Reader} {events : List Notice}
    (flat : Logs ((Flat.statements (Makefile.fuelFor s₀)).run
      ⟨s₀, Context.empty (Path.dirName (Path.absolute s₀.files.cwd M.root))⟩) (.ok ((ss, M.T), r₁)) events)
    (opened : openedPaths events = M.opened) :
    Gives (Makefile.ofStream s₀' M.root) (.ok ⟨M.root, r₁.context, ss⟩) := by
  have distinct' : (M.opened.map M.files'.locate).Nodup := by
    rw [FileSystem.locateSame valid.drops.cwd valid.drops.directories valid.drops.keys]
    exact distinct
  have agree : M.Agree ⟨s₀, Context.empty (Path.dirName (Path.absolute s₀.files.cwd M.root))⟩
      ⟨s₀', Context.empty (Path.dirName (Path.absolute s₀'.files.cwd M.root))⟩ :=
    ⟨by simp [ahead.files, ahead'.files, LineStream.empty, valid.drops.cwd], ahead.files, ahead'.files,
      by simp [ahead.workDir, ahead'.workDir, LineStream.empty],
      ahead'.sound (by simp [Faulty, Frame.ofSource, fine])⟩
  have aligned := Aligned.start agree (by simpa using ahead.tracks) (by simpa using ahead'.tracks) stands
  obtain ⟨r₁', context, reads⟩ := readsFlattened valid aligned flat rfl opened
  have enough := budgetFits valid distinct' aligned.tracks' aligned.agree.files'
  rw [Makefile.ofStream, ← context]
  exact givesBind (reads _ enough) (givesPure _)

end Mirror

end Parse

namespace Makefile

open Parse

def flatOfStream (stream : LineStream) (path : String) : Journal (List Statement × Trace) := do
  let ctx := Context.empty (Path.dirName (Path.absolute stream.files.cwd path))
  let (x, _) ← (Flat.statements (fuelFor stream)).run { stream := stream, context := ctx }
  pure x

def flatText (files : FileSystem) (text path : String) (workDir : Option String) :
    Journal (List Statement × Trace) := do
  let stream ← LineStream.ofText files text path workDir
  flatOfStream stream path

def flatFile (files : FileSystem) (path : String) (workDir : Option String) :
    Journal (List Statement × Trace) := do
  let path := Path.absolute files.cwd path
  let stream ← LineStream.openFile files path workDir
  flatOfStream stream path

def linesMet (reading : Journal (List Statement × Trace)) : Trace :=
  match (ExceptT.run reading).run [] with
  | (.ok x, _) => x.2
  | (.error _, _) => []

def openedBy {α : Type} (reading : Journal α) : List String :=
  openedPaths ((ExceptT.run reading).run []).2

theorem ofStreamDecomposes {opening : Journal LineStream} {s₀ : LineStream} {events₀ : List Notice}
    {path : String} {m : Makefile} {log : List Notice} (opens : Logs opening (.ok s₀) events₀)
    (parsed : (ExceptT.run (opening >>= fun stream => ofStream stream path)).run [] = (.ok m, log)) :
    ∃ ss T r₁ events, m = ⟨path, r₁.context, ss⟩ ∧
      Logs ((Flat.statements (fuelFor s₀)).run ⟨s₀, Context.empty (Path.dirName (Path.absolute s₀.files.cwd path))⟩)
        (.ok ((Statement.flatten ss, T), r₁)) events ∧
      linesMet (opening >>= fun stream => flatOfStream stream path) = T ∧
      openedPaths log = openedPaths events₀ ++ openedPaths events := by
  obtain ⟨added₀, run₀, filtered₀⟩ := opens []
  rw [runBind, run₀, List.nil_append] at parsed
  dsimp only at parsed
  rw [ofStream, runBind] at parsed
  generalize parsedRun : (ExceptT.run ((Parse.statements (fuelFor s₀)).run
    ⟨s₀, Context.empty (Path.dirName (Path.absolute s₀.files.cwd path))⟩)).run added₀ = run at parsed
  obtain ⟨_ | ⟨ss, r₁⟩, log'⟩ := run
  · cases parsed
  obtain ⟨T, flatRun⟩ := flatOfParse parsedRun
  obtain ⟨res, events, logs, -⟩ := statementsInOrder (fuelFor s₀)
    ⟨s₀, Context.empty (Path.dirName (Path.absolute s₀.files.cwd path))⟩
  obtain ⟨added₁, run₁, filtered₁⟩ := logs added₀
  rw [flatRun, Prod.mk.injEq] at run₁
  obtain ⟨rfl, rfl⟩ := run₁
  change (Except.ok ⟨path, r₁.context, ss⟩, added₀ ++ added₁) = (Except.ok m, log) at parsed
  cases parsed
  refine ⟨ss, T, r₁, events, rfl, logs, ?_, ?_⟩
  · unfold linesMet
    rw [runBind, run₀]
    dsimp only
    rw [flatOfStream, runBind, List.nil_append, flatRun]
    rfl
  · rw [openedPathsAppend, ← filtered₀, ← filtered₁, openedPathsFilter, openedPathsFilter]


theorem ofTextReads (files : FileSystem) (text path : String) (workDir : Option String) :
    ∃ s₀ closed, ReadAhead { LineStream.empty files (workDir.getD (LineStream.defaultWorkDir files path)) with
        frames := [Frame.ofSource path (Source.ofText text)] } s₀ closed ∧
      Logs (LineStream.ofText files text path workDir) (.ok s₀) (closed.map Notice.closedFile) := by
  obtain ⟨s₀, closed, ahead, reads⟩ := LineStream.advanceReads { LineStream.empty files
    (workDir.getD (LineStream.defaultWorkDir files path)) with frames := [Frame.ofSource path (Source.ofText text)] }
  exact ⟨s₀, closed, ahead, reads.logs (by simp [Faulty, Frame.ofSource, Source.ofText])⟩

theorem openFileReads {files : FileSystem} {root : String} {bytes : List UInt8} (workDir : Option String)
    (read : files.read root = .ok bytes) :
    ∃ s₀ closed, ReadAhead { LineStream.empty files (workDir.getD (LineStream.defaultWorkDir files root)) with
        frames := [Frame.ofSource root (Source.ofBytes bytes)] } s₀ closed ∧
      LogsOrStops (Faulty [Frame.ofSource root (Source.ofBytes bytes)]) (LineStream.openFile files root workDir)
        (.ok s₀) (.openedFile root :: closed.map Notice.closedFile) := by
  let s := LineStream.empty files (workDir.getD (LineStream.defaultWorkDir files root))
  have opened : Logs (s.push root) (.ok { s with frames := [Frame.ofSource root (Source.ofBytes bytes)] })
      [.openedFile root] := LineStream.pushOpens read
  obtain ⟨s₀, closed, ahead, reads⟩ := LineStream.advanceReads { s with frames := [Frame.ofSource root (Source.ofBytes bytes)] }
  exact ⟨s₀, closed, ahead, LogsOrStops.bind (.inl opened) reads⟩

theorem stopsBefore {opening : Journal LineStream} {path : String} {h : Halt} {events : List Notice} {m : Makefile}
    (stops : Logs opening (.error h) events)
    (parsed : ((ExceptT.run (opening >>= fun stream => ofStream stream path)).run []).1 = .ok m) : False := by
  obtain ⟨added, run, -⟩ := logsBindError (f := fun stream => ofStream stream path) stops []
  rw [run] at parsed
  cases parsed

theorem parseTextFlattened (files files' : FileSystem) (text text' path : String) (workDir : Option String)
    (m : Makefile) (parsed : ((ExceptT.run (parseText files text path workDir)).run []).1 = .ok m)
    (tabs : TabSafe (linesMet (flatText files text path workDir)))
    (once : path ∉ openedBy (parseText files text path workDir))
    (distinct : ((openedBy (parseText files text path workDir)).map files.locate).Nodup)
    (drops : DropsDirectives (linesMet (flatText files text path workDir)) (openedBy (parseText files text path workDir))
      files files')
    (dropsText : Trace.dropsText (linesMet (flatText files text path workDir)) path text text' = true) :
    ((ExceptT.run (parseText files' text' path workDir)).run []).1 =
      .ok { m with statements := Statement.flatten m.statements } := by
  obtain ⟨s₀, closed, ahead, opens⟩ := ofTextReads files text path workDir
  obtain ⟨ss, T, r₁, events, rfl, flat, met, opened⟩ :=
    ofStreamDecomposes opens (Prod.ext parsed rfl : _ = (Except.ok m, _))
  have included : openedBy (parseText files text path workDir) = openedPaths events := by
    unfold openedBy
    simpa using opened
  rw [show linesMet (flatText files text path workDir) = T from met] at tabs drops dropsText
  rw [included] at once distinct drops
  let M : Mirror := ⟨T, path, openedPaths events, files, files'⟩
  have valid : M.Valid := ⟨List.nodup_cons.mpr ⟨once, distinct.of_map _⟩, tabs, drops⟩
  obtain ⟨s₀', closed', ahead', opens'⟩ := ofTextReads files' text' path workDir
  have workDir' : workDir.getD (LineStream.defaultWorkDir files' path) =
      workDir.getD (LineStream.defaultWorkDir files path) := by
    simp [LineStream.defaultWorkDir, drops.cwd]
  rw [workDir'] at ahead'
  have stands := dropsText
  simp only [Trace.dropsText, beq_iff_eq] at stands
  have program : parseText files' text' path workDir =
      LineStream.ofText files' text' path workDir >>= fun stream => ofStream stream path := rfl
  rw [program]
  exact givesBind opens'.gives (Mirror.readsDropped (M := M) valid distinct ahead ahead' rfl stands flat rfl) []

theorem parseFileFlattened (files files' : FileSystem) (path : String) (workDir : Option String)
    (m : Makefile) (parsed : ((ExceptT.run (parseFile files path workDir)).run []).1 = .ok m)
    (tabs : TabSafe (linesMet (flatFile files path workDir)))
    (distinct : ((openedBy (parseFile files path workDir)).map files.locate).Nodup)
    (drops : DropsDirectives (linesMet (flatFile files path workDir)) (openedBy (parseFile files path workDir))
      files files') :
    ((ExceptT.run (parseFile files' path workDir)).run []).1 =
      .ok { m with statements := Statement.flatten m.statements } := by
  have program : parseFile files path workDir = LineStream.openFile files (Path.absolute files.cwd path) workDir >>=
      fun stream => ofStream stream (Path.absolute files.cwd path) := rfl
  have program' : parseFile files' path workDir = LineStream.openFile files' (Path.absolute files'.cwd path) workDir >>=
      fun stream => ofStream stream (Path.absolute files'.cwd path) := rfl
  have flatProgram : flatFile files path workDir = LineStream.openFile files (Path.absolute files.cwd path) workDir >>=
      fun stream => flatOfStream stream (Path.absolute files.cwd path) := rfl
  rw [drops.cwd] at program'
  unfold openedBy at distinct drops
  rw [program] at parsed distinct drops
  rw [flatProgram] at tabs drops
  rw [program']
  generalize Path.absolute files.cwd path = root at parsed distinct drops tabs ⊢
  rcases read : files.read root with why | bytes
  · have stops : Logs (LineStream.openFile files root workDir) _ [] := logsBindError
      (@LineStream.pushFails (LineStream.empty files (workDir.getD (LineStream.defaultWorkDir files root))) root why read)
    exact (stopsBefore stops parsed).elim
  obtain ⟨s₀, closed, ahead, reads⟩ := openFileReads workDir read
  have opens : Logs (LineStream.openFile files root workDir) (.ok s₀) (.openedFile root :: closed.map Notice.closedFile) := by
    rcases reads with reads | ⟨-, e, added, stops⟩
    · exact reads
    · exact (stopsBefore stops parsed).elim
  obtain ⟨ss, T, r₁, events, rfl, flat, met, opened⟩ :=
    ofStreamDecomposes opens (Prod.ext parsed rfl : _ = (Except.ok m, _))
  have rootFirst : openedPaths ((ExceptT.run (LineStream.openFile files root workDir >>=
      fun stream => ofStream stream root)).run []).2 = root :: openedPaths events := by
    rw [opened, show Notice.openedFile root :: closed.map Notice.closedFile =
      [Notice.openedFile root] ++ closed.map Notice.closedFile from rfl, openedPathsAppend, openedPathsCloses]
    rfl
  rw [met] at tabs drops
  rw [rootFirst] at distinct drops
  let M : Mirror := ⟨T, root, openedPaths events, files, files'⟩
  have valid : M.Valid := ⟨distinct.of_map _, tabs,
    ⟨drops.cwd, drops.directories, drops.keys, fun p mem => drops.edited p (List.mem_cons_of_mem _ mem)⟩⟩
  have rootDrops := drops.edited root List.mem_cons_self
  rw [read] at rootDrops
  obtain ⟨bytes', read'⟩ := dropsRead rootDrops
  rw [read'] at rootDrops
  obtain ⟨fine, stands⟩ := dropsOk rootDrops
  obtain ⟨s₀', closed', ahead', reads'⟩ := openFileReads workDir read'
  have workDir' : workDir.getD (LineStream.defaultWorkDir files' root) =
      workDir.getD (LineStream.defaultWorkDir files root) := by
    simp [LineStream.defaultWorkDir, drops.cwd]
  rw [workDir'] at ahead'
  have opens' := reads'.logs (by simp [Faulty, Frame.ofSource, fine])
  exact givesBind opens'.gives
    (Mirror.readsDropped (M := M) valid (List.nodup_cons.mp distinct).2 ahead ahead' fine stands flat rfl) []

/-- Conditions are never evaluated: a makefile, given as text or read from a file, none of whose files
is opened twice and in which no line that starts with a tab follows a conditional directive line,
parses, once the directive lines its reading consumes are dropped and each plain `else REST` is
replaced by `REST`, to its statements with every conditional flattened and to the same variables. -/
theorem droppingDirectivesFlattens (files files' : FileSystem) (workDir : Option String) :
    (∀ text text' path m, ((ExceptT.run (parseText files text path workDir)).run []).1 = .ok m →
      TabSafe (linesMet (flatText files text path workDir)) →
      path ∉ openedBy (parseText files text path workDir) →
      ((openedBy (parseText files text path workDir)).map files.locate).Nodup →
      DropsDirectives (linesMet (flatText files text path workDir)) (openedBy (parseText files text path workDir))
        files files' →
      Trace.dropsText (linesMet (flatText files text path workDir)) path text text' = true →
      ((ExceptT.run (parseText files' text' path workDir)).run []).1 =
        .ok { m with statements := Statement.flatten m.statements }) ∧
    (∀ path m, ((ExceptT.run (parseFile files path workDir)).run []).1 = .ok m →
      TabSafe (linesMet (flatFile files path workDir)) →
      ((openedBy (parseFile files path workDir)).map files.locate).Nodup →
      DropsDirectives (linesMet (flatFile files path workDir)) (openedBy (parseFile files path workDir)) files files' →
      ((ExceptT.run (parseFile files' path workDir)).run []).1 =
        .ok { m with statements := Statement.flatten m.statements }) :=
  ⟨fun text text' path m => parseTextFlattened files files' text text' path workDir m,
    fun path m => parseFileFlattened files files' path workDir m⟩

theorem includedArmsFlatten :
    let text := "A = 1\ninclude inc.mk\nifeq (a,b)\nifneq (x,y)\n# nested\nendif\nelse export D=4\nendif\n"
    let text' := "A = 1\ninclude inc.mk\n# nested\nexport D=4\n"
    let files : FileSystem := ⟨"/w", ["/w"], [("/w/Makefile", text.toUTF8.toList),
      ("/w/inc.mk", "ifneq (x,y)\nB = 2\nelse\nunexport B\nendif\n".toUTF8.toList)]⟩
    let files' : FileSystem := ⟨"/w", ["/w"], [("/w/Makefile", text'.toUTF8.toList),
      ("/w/inc.mk", "B = 2\nunexport B\n".toUTF8.toList)]⟩
    (TabSafe (linesMet (flatText files text "/w/Makefile" none)) ∧
      "/w/Makefile" ∉ openedBy (parseText files text "/w/Makefile" none) ∧
      ((openedBy (parseText files text "/w/Makefile" none)).map files.locate).Nodup ∧
      DropsDirectives (linesMet (flatText files text "/w/Makefile" none))
        (openedBy (parseText files text "/w/Makefile" none)) files files' ∧
      Trace.dropsText (linesMet (flatText files text "/w/Makefile" none)) "/w/Makefile" text text' = true ∧
      ∃ m, ((ExceptT.run (parseText files text "/w/Makefile" none)).run []).1 = .ok m ∧
        ((ExceptT.run (parseText files' text' "/w/Makefile" none)).run []).1 =
          .ok { m with statements := Statement.flatten m.statements }) ∧
    (TabSafe (linesMet (flatFile files "/w/Makefile" none)) ∧
      ((openedBy (parseFile files "/w/Makefile" none)).map files.locate).Nodup ∧
      DropsDirectives (linesMet (flatFile files "/w/Makefile" none)) (openedBy (parseFile files "/w/Makefile" none))
        files files' ∧
      ∃ m, ((ExceptT.run (parseFile files "/w/Makefile" none)).run []).1 = .ok m ∧
        ((ExceptT.run (parseFile files' "/w/Makefile" none)).run []).1 =
          .ok { m with statements := Statement.flatten m.statements }) := by
  intro text text' files files'
  have checks : (((ExceptT.run (parseText files text "/w/Makefile" none)).run []).1.isOk = true ∧
      TabSafe (linesMet (flatText files text "/w/Makefile" none)) ∧
      "/w/Makefile" ∉ openedBy (parseText files text "/w/Makefile" none) ∧
      ((openedBy (parseText files text "/w/Makefile" none)).map files.locate).Nodup ∧
      DropsDirectives (linesMet (flatText files text "/w/Makefile" none))
        (openedBy (parseText files text "/w/Makefile" none)) files files' ∧
      Trace.dropsText (linesMet (flatText files text "/w/Makefile" none)) "/w/Makefile" text text' = true) ∧
      (((ExceptT.run (parseFile files "/w/Makefile" none)).run []).1.isOk = true ∧
      TabSafe (linesMet (flatFile files "/w/Makefile" none)) ∧
      ((openedBy (parseFile files "/w/Makefile" none)).map files.locate).Nodup ∧
      DropsDirectives (linesMet (flatFile files "/w/Makefile" none)) (openedBy (parseFile files "/w/Makefile" none))
        files files') := by
    decide +kernel
  obtain ⟨⟨parsesText, tabs, once, distinct, drops, dropsText⟩, ⟨parsesFile, tabs', distinct', drops'⟩⟩ := checks
  obtain ⟨m, parsed⟩ : ∃ m, ((ExceptT.run (parseText files text "/w/Makefile" none)).run []).1 = .ok m := by
    cases run : ((ExceptT.run (parseText files text "/w/Makefile" none)).run []).1 with
    | ok m => exact ⟨m, rfl⟩
    | error e => simp [run, Except.isOk, Except.toBool] at parsesText
  obtain ⟨m', parsed'⟩ : ∃ m, ((ExceptT.run (parseFile files "/w/Makefile" none)).run []).1 = .ok m := by
    cases run : ((ExceptT.run (parseFile files "/w/Makefile" none)).run []).1 with
    | ok m => exact ⟨m, rfl⟩
    | error e => simp [run, Except.isOk, Except.toBool] at parsesFile
  have flattens := droppingDirectivesFlattens files files' none
  exact ⟨⟨tabs, once, distinct, drops, dropsText, m, parsed,
      flattens.1 text text' "/w/Makefile" m parsed tabs once distinct drops dropsText⟩,
    ⟨tabs', distinct', drops', m', parsed', flattens.2 "/w/Makefile" m' parsed' tabs' distinct' drops'⟩⟩

end Makefile

end Maketree
