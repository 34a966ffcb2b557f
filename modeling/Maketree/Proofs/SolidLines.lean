import Mathlib
import Maketree.Proofs.LineStream
import Maketree.Makefile
/-! Which logical lines hold text: all of them, unless a line of blanks and a backslash adds nothing
but blanks. -/
namespace Maketree

open Text Journal Expansion

namespace LogicalLine

def loneBackslash (line : String) : Bool := continues line && isBlankText (dropLast line)

theorem blankAppend (a b : String) : isBlankText (a ++ b) = (isBlankText a && isBlankText b) := by
  simp [isBlankText, String.toList_append, List.all_append]

theorem continuedSolid {line more : String} (continued : continues line = true)
    (notLone : loneBackslash line = false) : isBlankText (dropLast line ++ more) = false := by
  have before : isBlankText (dropLast line) = false := by
    simpa [loneBackslash, continued] using notLone
  rw [blankAppend, before, Bool.false_and]

theorem expandFromSolid {lines : List String} (solid : ∀ l ∈ lines, loneBackslash l = false) :
    ∀ n skip, ∀ p ∈ expandFrom n skip lines, isBlankText p.1 = false := by
  -- induction on the physical lines, following `expandFrom`: a skipped line, a blank line, a
  -- continued line and a line by itself
  induction lines with
  | nil => simp [expandFrom]
  | cons l rest ih =>
    have tail := ih fun l' mem => solid l' (List.mem_cons_of_mem l mem)
    intro n skip p mem
    cases skip with
    | succ s => exact tail (n + 1) s p mem
    | zero =>
      simp only [expandFrom] at mem
      split at mem
      · exact tail (n + 1) 0 p mem
      rename_i notBlank
      split at mem
      · rename_i continued
        obtain ⟨text, k⟩ := continuation rest
        rcases List.mem_cons.mp mem with head | later
        · rw [head]
          exact continuedSolid continued (solid l List.mem_cons_self)
        · exact tail _ _ p later
      · rcases List.mem_cons.mp mem with head | later
        · rw [head]
          simpa using notBlank
        · exact tail _ _ p later

theorem expandSolid {lines : List String} (solid : ∀ l ∈ lines, loneBackslash l = false) (n : Nat) :
    ∀ p ∈ expand n lines, isBlankText p.1 = false :=
  expandFromSolid solid n 0

end LogicalLine

namespace Expansion

/-- Every logical line pending holds a non-blank character. -/
def Solid (pending : Pending) : Prop := ∀ file ∈ pending, ∀ p ∈ file.2, isBlankText p.1 = false

theorem Solid.next {pending rest : Pending} {text : String} {loc : Location} (solid : Solid pending)
    (first : Expansion.next pending = some ((text, loc), rest)) : isBlankText text = false ∧ Solid rest := by
  -- induction on the stack, following `next`: a used-up file is passed over
  induction pending with
  | nil => simp [Expansion.next] at first
  | cons file more ih =>
    obtain ⟨path, lines⟩ := file
    cases lines with
    | nil =>
      exact ih (fun f mem => solid f (List.mem_cons_of_mem _ mem)) first
    | cons line others =>
      simp only [Expansion.next, Option.some.injEq, Prod.mk.injEq] at first
      obtain ⟨⟨rfl, -⟩, rfl⟩ := first
      refine ⟨solid _ List.mem_cons_self _ List.mem_cons_self, fun f mem p inFile => ?_⟩
      rcases List.mem_cons.mp mem with rfl | later
      · exact solid _ List.mem_cons_self p (List.mem_cons_of_mem _ inFile)
      · exact solid f (List.mem_cons_of_mem _ later) p inFile

def FilesSolid (files : FileSystem) : Prop :=
  ∀ path lines, fileLines files path = some lines → ∀ p ∈ lines, isBlankText p.1 = false

theorem filesSolid {files : FileSystem}
    (solid : ∀ e ∈ files.files, ∀ l ∈ (Source.ofBytes e.2).lines, LogicalLine.loneBackslash l = false) :
    FilesSolid files := by
  intro path lines opened
  unfold fileLines at opened
  split at opened
  · rename_i bytes read
    obtain ⟨key, listed⟩ := FileSystem.readListed read
    cases opened
    exact LogicalLine.expandSolid (solid _ listed) 0
  · cases opened

theorem spliceSolid {files : FileSystem} (workDir : String) (filesSolid : FilesSolid files) :
    ∀ (client : List (Option Bool × String)) (pending : Pending), Solid pending →
      ∀ out done, splice files workDir client pending = some (out, done) → ∀ x ∈ out, isBlankText x.1 = false := by
  -- induction on the client's reads; `Solid` is the invariant between two of them
  intro client
  induction client with
  | nil =>
    intro pending _ out done spliced
    simp only [splice, Option.some.injEq, Prod.mk.injEq] at spliced
    simp [← spliced.1]
  | cons entry client ih =>
    obtain ⟨defer, path⟩ := entry
    intro pending solid out done spliced
    unfold splice at spliced
    split at spliced
    · simp only [Option.some.injEq, Prod.mk.injEq] at spliced
      simp [← spliced.1]
    rename_i text loc rest first
    obtain ⟨held, solidRest⟩ := solid.next first
    obtain ⟨pending', solid', lines, done', more, same⟩ : ∃ pending', Solid pending' ∧ ∃ lines done',
        splice files workDir client pending' = some (lines, done') ∧ out = (text, loc) :: lines := by
      dsimp only at spliced
      split at spliced
      · simp only [Option.bind_eq_bind, Option.bind_eq_some_iff, Option.map_eq_some_iff] at spliced
        obtain ⟨_, ⟨lines, read, rfl⟩, ⟨more, done'⟩, spliced, same⟩ := spliced
        simp only [Option.pure_def, Option.some.injEq, Prod.mk.injEq] at same
        refine ⟨_, fun f mem p inFile => ?_, more, done', spliced, same.1.symm⟩
        rcases List.mem_cons.mp mem with rfl | later
        · exact filesSolid _ _ read p inFile
        · exact solidRest f later p inFile
      · simp only [Option.bind_eq_bind, Option.bind_eq_some_iff, Option.some.injEq] at spliced
        obtain ⟨_, rfl, ⟨more, done'⟩, spliced, same⟩ := spliced
        simp only [Option.pure_def, Option.some.injEq, Prod.mk.injEq] at same
        exact ⟨rest, solidRest, more, done', spliced, same.1.symm⟩
    intro x mem
    rw [same] at mem
    rcases List.mem_cons.mp mem with rfl | later
    · exact held
    · exact ih pending' solid' lines done' more x later

end Expansion

namespace LineStream

theorem ofTextTracks (files : FileSystem) (text path : String) (workDir : Option String) :
    ∃ s, Gives (ofText files text path workDir) (.ok s) ∧
      Tracks s [(path, LogicalLine.expand 0 (Source.ofText text).lines)] ∧ ¬Faulty s.frames ∧
      s.files = files ∧ s.workDir = workDir.getD (defaultWorkDir files path) := by
  let root := Frame.ofSource path (Source.ofText text)
  have fine : ¬Faulty [root] := by simp [Faulty, root, Frame.ofSource, Source.ofText]
  obtain ⟨s, closed, ahead, reads⟩ :=
    advanceReads { empty files (workDir.getD (defaultWorkDir files path)) with frames := [root] }
  have tracks := ahead.tracks
  simp only [List.map_cons, List.map_nil, root, Frame.viewOfSource] at tracks
  exact ⟨s, (reads.logs fine).gives, tracks, ahead.sound fine, ahead.files, ahead.workDir⟩

theorem openFileTracks {files : FileSystem} {path : String} (workDir : Option String)
    {bytes : List UInt8} (read : files.read path = .ok bytes)
    (utf8 : (Source.ofBytes bytes).failure = none) :
    ∃ s, Gives (openFile files path workDir) (.ok s) ∧
      Tracks s [(path, LogicalLine.expand 0 (Source.ofBytes bytes).lines)] ∧ ¬Faulty s.frames ∧
      s.files = files ∧ s.workDir = workDir.getD (defaultWorkDir files path) := by
  let start := empty files (workDir.getD (defaultWorkDir files path))
  have fine : ¬Faulty (Frame.ofSource path (Source.ofBytes bytes) :: start.frames) := by
    simpa [Faulty, start, empty, Frame.ofSource] using utf8
  obtain ⟨s, closed, ahead, reads⟩ :=
    advanceReads { start with frames := Frame.ofSource path (Source.ofBytes bytes) :: start.frames }
  have tracks := ahead.tracks
  simp only [List.map_cons, Frame.viewOfSource, start, empty, List.map_nil] at tracks
  exact ⟨s, givesBind (pushOpens (s := start) read).gives (reads.logs fine).gives, tracks,
    ahead.sound fine, ahead.files, ahead.workDir⟩

theorem yieldsSolid {run : Journal (List (String × Option Location) × LineStream)}
    {expansion : Option (List (String × Location) × Bool)} (yields : Yields run expansion)
    (solid : ∀ out done, expansion = some (out, done) → ∀ x ∈ out, isBlankText x.1 = false) :
    ∃ res, Gives run res ∧ ∀ lines s, res = .ok (lines, s) → ∀ x ∈ lines, isBlankText x.1 = false := by
  rcases expansion with _ | ⟨out, done⟩
  · obtain ⟨h, gives⟩ := yields
    exact ⟨_, gives, by simp⟩
  · obtain ⟨s, gives, -⟩ := yields
    refine ⟨_, gives, fun lines s' same x mem => ?_⟩
    simp only [Except.ok.injEq, Prod.mk.injEq] at same
    rw [← same.1] at mem
    obtain ⟨y, inOut, rfl⟩ := List.mem_map.mp mem
    exact solid out done rfl y inOut

theorem serveSolid (client : List (Option Bool × String)) {s : LineStream} {pending : Pending}
    (tracks : Tracks s pending) (sound : ¬Faulty s.frames)
    (utf8 : ∀ e ∈ s.files.files, (Source.ofBytes e.2).failure = none)
    (solid : Solid pending) (filesSolid : FilesSolid s.files) :
    Yields (serve client s) (splice s.files s.workDir client pending) ∧
      ∀ out done, splice s.files s.workDir client pending = some (out, done) →
        ∀ x ∈ out, isBlankText x.1 = false :=
  ⟨serveSplices client tracks sound utf8, spliceSolid s.workDir filesSolid client pending solid⟩

theorem readLinesHoldText (files : FileSystem) (path : String) (workDir : Option String)
    (client : List (Option Bool × String))
    (utf8 : ∀ e ∈ files.files, (Source.ofBytes e.2).failure = none)
    (included : ∀ e ∈ files.files, ∀ l ∈ (Source.ofBytes e.2).lines, LogicalLine.loneBackslash l = false) :
    (∀ text, (∀ l ∈ (Source.ofText text).lines, LogicalLine.loneBackslash l = false) →
      ∃ res, Gives (ofText files text path workDir >>= serve client) res ∧
        ∀ lines s, res = .ok (lines, s) → ∀ x ∈ lines, isBlankText x.1 = false) ∧
    (∀ bytes, files.read path = .ok bytes →
      ∃ res, Gives (openFile files path workDir >>= serve client) res ∧
        ∀ lines s, res = .ok (lines, s) → ∀ x ∈ lines, isBlankText x.1 = false) := by
  have solidFiles := filesSolid included
  have rootSolid : ∀ lines, (∀ l ∈ lines, LogicalLine.loneBackslash l = false) →
      Solid [(path, LogicalLine.expand 0 lines)] := by
    intro lines noLone f mem
    rw [List.mem_singleton.mp mem]
    exact LogicalLine.expandSolid noLone 0
  constructor
  · intro text noLone
    obtain ⟨s, opened, tracks, sound, sameFiles, sameDir⟩ := ofTextTracks files text path workDir
    obtain ⟨yields, solid⟩ := serveSolid client tracks sound (sameFiles ▸ utf8) (rootSolid _ noLone)
      (sameFiles ▸ solidFiles)
    exact yieldsSolid (yieldsAfter opened yields) solid
  · intro bytes read
    obtain ⟨key, listed⟩ := FileSystem.readListed read
    obtain ⟨s, opened, tracks, sound, sameFiles, sameDir⟩ :=
      openFileTracks workDir read (utf8 _ listed)
    obtain ⟨yields, solid⟩ := serveSolid client tracks sound (sameFiles ▸ utf8)
      (rootSolid _ (included _ listed)) (sameFiles ▸ solidFiles)
    exact yieldsSolid (yieldsAfter opened yields) solid

set_option maxRecDepth 8192 in
theorem continuedIncludeReadsText :
    (∀ e ∈ (⟨"/r", ["/r"], [("/r/inc.mk", [0x79, 0x20, 0x5C, 0x0A, 0x7A, 0x0A])]⟩ : FileSystem).files,
      (Source.ofBytes e.2).failure = none) ∧
    (∀ e ∈ (⟨"/r", ["/r"], [("/r/inc.mk", [0x79, 0x20, 0x5C, 0x0A, 0x7A, 0x0A])]⟩ : FileSystem).files,
      ∀ l ∈ (Source.ofBytes e.2).lines, LogicalLine.loneBackslash l = false) ∧
    (∀ l ∈ (Source.ofText "a \\\n\n include inc.mk\n").lines, LogicalLine.loneBackslash l = false) ∧
    ∃ res, Gives (ofText ⟨"/r", ["/r"], [("/r/inc.mk", [0x79, 0x20, 0x5C, 0x0A, 0x7A, 0x0A])]⟩
        "a \\\n\n include inc.mk\n" "Makefile" (some "/r") >>=
      serve [(none, ""), (none, "inc.mk"), (none, ""), (none, "")]) res ∧
      ∀ lines s, res = .ok (lines, s) → ∀ x ∈ lines, isBlankText x.1 = false := by
  have utf8 : ∀ e ∈ (⟨"/r", ["/r"], [("/r/inc.mk", [0x79, 0x20, 0x5C, 0x0A, 0x7A, 0x0A])]⟩ :
      FileSystem).files, (Source.ofBytes e.2).failure = none := by with_unfolding_all decide
  have included : ∀ e ∈ (⟨"/r", ["/r"], [("/r/inc.mk", [0x79, 0x20, 0x5C, 0x0A, 0x7A, 0x0A])]⟩ :
      FileSystem).files, ∀ l ∈ (Source.ofBytes e.2).lines, LogicalLine.loneBackslash l = false := by
    with_unfolding_all decide
  have root : ∀ l ∈ (Source.ofText "a \\\n\n include inc.mk\n").lines,
      LogicalLine.loneBackslash l = false := by decide
  exact ⟨utf8, included, root, (readLinesHoldText _ "Makefile" (some "/r")
    [(none, ""), (none, "inc.mk"), (none, ""), (none, "")] utf8 included).1 _ root⟩

set_option maxRecDepth 8192 in
theorem loneBackslashReadsBlank :
    LogicalLine.loneBackslash "\\" = true ∧
    (∃ s, Gives (ofText ⟨"/w", ["/w"], []⟩ "\\\n" "Makefile" none >>= serve [(none, "")])
      (.ok ([("", some ⟨"Makefile", 1⟩)], s))) ∧
    (match (Makefile.parseText ⟨"/w", ["/w"], []⟩ "\\\n" "Makefile" none).run.1 with
      | .ok m => m.statements == [.command ""]
      | .error _ => false) = true := by
  obtain ⟨s, opened, tracks, sound, sameFiles, sameDir⟩ := ofTextTracks ⟨"/w", ["/w"], []⟩ "\\\n" "Makefile" none
  have yields := yieldsAfter opened (serveSplices [(none, "")] tracks sound (by simp [sameFiles]))
  have expansion : splice s.files s.workDir [(none, "")]
      [("Makefile", LogicalLine.expand 0 (Source.ofText "\\\n").lines)] = some ([("", ⟨"Makefile", 1⟩)], true) := by
    rw [sameFiles, sameDir]
    decide
  rw [expansion] at yields
  obtain ⟨s', gives, -⟩ := yields
  exact ⟨by decide, ⟨s', gives⟩, by decide⟩

end LineStream

end Maketree
