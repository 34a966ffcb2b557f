import Mathlib
import Maketree.Makefile
import Maketree.Proofs.ReadSteps
import Maketree.Proofs.LineKind
import Maketree.Proofs.SourceSize
/-! Reading a makefile ends. -/
namespace Maketree

open Journal Expansion LineStream

namespace Parse

variable {L : Limits} {stack : List String} {r : Reader} {phi : Nat}

theorem readyMore (ready : Ready L stack r phi) (line : r.stream.next ≠ "") : r.stream.eof = false := by
  obtain ⟨-, pending, tracks, -⟩ := ready
  cases tracks with
  | ended _ _ empty => exact absurd empty line
  | ahead _ eof => exact eof

theorem recipeStepsEnds (fuel : Nat) (cwd : String) (r : Reader) (stack : List String) (phi : Nat) :
    Ends L (Ready L stack r phi ∧ phi + 1 ≤ fuel) (recipeSteps fuel cwd) r stack
      fun _ r' stack' => Ready L stack' r' phi := by
  induction fuel generalizing cwd r stack phi with
  | zero => exact ⟨_, [], logsThrow _, fun ⟨_, enough⟩ => by omega⟩
  | succ fuel ih =>
    rw [recipeSteps]
    refine peekThen ?_
    split
    · rename_i tab
      have more : r.stream.next ≠ "" := by
        intro empty
        simp [empty] at tab
      refine ((readLineEnds (some false)).carry fun ⟨ready, _⟩ => ⟨ready, readyMore ready more⟩).bind
        fun line r1 stack1 => ?_
      by_cases blank : Text.isBlankText line = true
      · rw [if_pos blank]
        refine (ih cwd r1 stack1 (phi - 1)).mono ?_ fun _ _ _ _ ready => readyMono ready (Nat.sub_le _ _)
        rintro ⟨⟨-, enough⟩, -, pos, ready⟩
        exact ⟨by simpa using ready, by omega⟩
      · rw [if_neg blank]
        refine placeThen ?_
        refine (Keeps.closed.step _ _ _).andThen fun ⟨s, cwd'⟩ r2 same => ?_
        refine ((ih cwd' r2 stack1 (phi - 1)).mono ?_ fun _ _ _ _ ready => ready).bind fun _ _ _ => ?_
        · rintro ⟨⟨-, enough⟩, -, pos, ready⟩
          exact ⟨readyStream (by simpa using ready) same, by omega⟩
        · exact Ends.ofPure fun ready => readyMono ready (Nat.sub_le _ _)
    · exact Ends.ofPure fun ⟨ready, _⟩ => ready

theorem targetEnds (fuel : Nat) (line : String) (r : Reader) (stack : List String) (phi : Nat) :
    Ends L (Ready L stack r phi ∧ phi + 1 ≤ fuel) (target fuel line) r stack
      fun _ r' stack' => Ready L stack' r' phi := by
  have recipe : ∀ (cwd : String) (r' : Reader) (f : List Statement → Statement), r'.stream = r.stream →
      Ends L (Ready L stack r phi ∧ phi + 1 ≤ fuel) (recipeSteps fuel cwd >>= fun rest => pure (f rest))
        r' stack fun _ r' stack' => Ready L stack' r' phi := by
    intro cwd r' f same
    refine ((recipeStepsEnds fuel cwd r' stack phi).mono ?_ fun _ _ _ _ ready => ready).bind
      fun _ _ _ => Ends.ofPure id
    exact fun ⟨ready, enough⟩ => ⟨readyStream ready same, enough⟩
  unfold target
  refine placeThen ?_
  split
  · exact failEnds _ _
  dsimp only
  split
  · exact failEnds _ _
  -- whether the rule has a double colon only shapes the statement; a first step on the header line
  -- decides where the recipe starts
  split
  · rename_i c _
    refine getThen (getThen ?_)
    by_cases blank : Text.isBlankText c = true
    · simp only [blank, if_true, pure_bind]
      exact recipe _ _ _ rfl
    · simp only [blank, Bool.false_eq_true, if_false, pure_bind]
      exact (Keeps.closed.step _ _ _).andThen fun _ r' same => recipe _ r' _ same
  · refine getThen (getThen ?_)
    simp only [pure_bind]
    exact recipe _ _ _ rfl

theorem includeDirectiveEnds (line : String) (r : Reader) (stack : List String) (phi : Nat) :
    Ends L (Waiting L stack r phi) (includeDirective line) r stack
      fun _ r' stack' => Ready L stack' r' phi := by
  unfold includeDirective
  split
  · rename_i path extra _
    -- the file is opened after the notice about extra words, which leaves the stream alone
    have opens : ∀ r', r'.stream = r.stream →
        Ends L (Waiting L stack r phi) (openInclude path >>= fun _ => pure (Statement.includeFile path))
          r' stack fun _ r' stack' => Ready L stack' r' phi := by
      intro r' same
      refine ((openIncludeEnds path).mono (fun waiting => waitingStream waiting same)
        fun _ _ _ _ ready => ready).bind fun _ _ _ => Ends.ofPure id
    dsimp only
    split
    · exact placeThen ((Keeps.ofNote _ rfl).andThen fun _ r' same => opens r' same)
    · exact opens r rfl
  · exact placeThen (failEnds _ _)

theorem Keeps.after {α : Type} {p : ReadM α} {line : String} {extra : Prop} (keeps : Keeps p)
    (plain : isInclude line = false) :
    Ends L (After L stack r line phi ∧ extra) p r stack fun _ r' stack' => Ready L stack' r' phi :=
  keeps.ready.under fun ⟨after, _⟩ => afterReady after plain

def Reads {α : Type} (L : Limits) (fuel extra : Nat) (start : List String → Reader → Nat → Prop)
    (p : ReadM α) : Prop :=
  ∀ r stack phi, Ends L (start stack r phi ∧ 4 * phi + extra ≤ fuel) p r stack
    fun _ r' stack' => Ready L stack' r' phi

theorem Reads.exhausted {α : Type} {extra : Nat} {start : List String → Reader → Nat → Prop} :
    Reads L 0 (extra + 1) start (throw .exhausted : ReadM α) :=
  fun _ _ _ => ⟨_, [], logsThrow _, fun ⟨_, enough⟩ => by omega⟩

section Steps

variable {fuel : Nat}

theorem statementStep (arms : ∀ line, Reads L fuel 2 (Ready L) (arm fuel line)) (raw : String) :
    Reads L (fuel + 1) 3 (fun stack r phi => After L stack r raw phi) (statement (fuel + 1) raw) := by
  intro r stack phi
  rw [statement]
  split
  · rename_i hash
    exact (Keeps.ofPure _).after (by simpa using commentNotInclude hash)
  dsimp only
  split
  · rename_i exported
    exact (Keeps.place.bind fun _ => (Keeps.closed.exportDirective _ _ _).bind fun _ => Keeps.ofPure _).after
      (by simpa using directiveNotInclude exported)
  · rename_i exported
    exact (Keeps.place.bind fun _ => (Keeps.closed.exportDirective _ _ _).bind fun _ => Keeps.ofPure _).after
      (by simpa using directiveNotInclude exported)
  split
  · rename_i assignment
    have plain : isInclude raw = false := by
      cases included : isInclude raw with
      | false => rfl
      | true => simp [includeNotAssignment included] at assignment
    exact ((Keeps.assign _ _).bind fun _ => Keeps.ofPure _).after plain
  split
  · rename_i included
    refine ((includeDirectiveEnds _ r stack phi).under ?_).bind fun _ _ _ => Ends.ofPure id
    rintro ⟨after, -⟩
    simpa [After, show isInclude raw = true by simpa using included] using after
  rename_i notIncluded
  have plain : isInclude raw = false := by simpa using notIncluded
  have opens : Ends L (After L stack r raw phi ∧ 4 * phi + 3 ≤ fuel + 1) (arm fuel (Text.trim raw) >>=
      fun x => pure (some (Statement.conditional x.1 x.2.1 x.2.2))) r stack
      fun _ r' stack' => Ready L stack' r' phi := by
    refine ((arms _ r stack phi).under ?_).bind fun _ _ _ => Ends.ofPure id
    rintro ⟨after, enough⟩
    exact ⟨afterReady after plain, by omega⟩
  split
  · exact opens
  · exact opens
  · exact placeThen (failThen _ _)
  · exact placeThen (failThen _ _)
  split
  · refine ((targetEnds fuel _ r stack phi).under ?_).bind fun _ _ _ => Ends.ofPure id
    rintro ⟨after, enough⟩
    exact ⟨afterReady after plain, by omega⟩
  · exact (Keeps.place.bind fun _ => (Keeps.ofNote _ rfl).bind fun _ => Keeps.ofPure _).after plain

theorem armStep (bodies : ∀ start, Reads L fuel 1 (Ready L) (armBody fuel start)) (line : String) :
    Reads L (fuel + 1) 2 (Ready L) (arm (fuel + 1) line) := by
  intro r stack phi
  rw [arm]
  refine placeThen ?_
  split
  · refine ((bodies _ r stack phi).under ?_).bind fun _ _ _ => Ends.ofPure id
    exact fun ⟨ready, enough⟩ => ⟨ready, by omega⟩
  · exact failEnds _ _

theorem endifEnds {γ : Type} (more : r.stream.eof = false)
    (endif : directive? (Text.trim r.stream.next) = some .endif) (a : γ) :
    Ends L (Ready L stack r phi ∧ 4 * phi + 1 ≤ fuel + 1) (readLine none >>= fun _ => pure a) r stack
      fun _ r' stack' => Ready L stack' r' phi := by
  refine ((readLineEnds none).carry fun ⟨ready, _⟩ => ⟨ready, more⟩).bind fun _ _ _ => Ends.ofPure ?_
  rintro ⟨-, rfl, -, after⟩
  have plain : isInclude r.stream.next = false := by simpa using directiveNotInclude endif
  simp only [Option.getD_none, plain, Bool.false_eq_true, if_false] at after
  exact readyMono after (Nat.sub_le _ _)

theorem lineThen {γ δ : Type} {body : ReadM γ}
    (onStatement : ∀ raw, Reads L fuel 3 (fun stack r phi => After L stack r raw phi) (statement fuel raw))
    (bodies : Reads L fuel 1 (Ready L) body) (more : r.stream.eof = false) (g : Option Statement → γ → δ) :
    Ends L (Ready L stack r phi ∧ 4 * phi + 1 ≤ fuel + 1)
      (readLine none >>= fun line => statement fuel line >>= fun s => body >>= fun x => pure (g s x)) r stack
      fun _ r' stack' => Ready L stack' r' phi := by
  refine ((readLineEnds none).carry fun ⟨ready, _⟩ => ⟨ready, more⟩).bind fun line r1 stack1 => ?_
  refine ((onStatement line r1 stack1 (phi - 1)).carry ?_).bind fun _ r2 stack2 => ?_
  · rintro ⟨⟨-, enough⟩, -, pos, after⟩
    exact ⟨by simpa [After] using after, by omega⟩
  refine ((bodies r2 stack2 (phi - 1)).mono ?_ fun _ _ _ _ ready => readyMono ready (Nat.sub_le _ _)).bind
    fun _ _ _ => Ends.ofPure id
  rintro ⟨⟨⟨-, enough⟩, -, pos, -⟩, ready⟩
  exact ⟨ready, by omega⟩

section Bodies

variable (onStatement : ∀ raw, Reads L fuel 3 (fun stack r phi => After L stack r raw phi) (statement fuel raw))

include onStatement in
theorem armBodyStep (arms : ∀ line, Reads L fuel 2 (Ready L) (arm fuel line))
    (elseArms : ∀ rest start, Reads L fuel 4 (fun stack r phi => After L stack r rest phi) (elseArm fuel rest start))
    (bodies : ∀ start, Reads L fuel 1 (Ready L) (armBody fuel start)) (start : Option Location) :
    Reads L (fuel + 1) 1 (Ready L) (armBody (fuel + 1) start) := by
  intro r stack phi
  rw [armBody]
  refine atEndThen ?_
  dsimp only
  split
  · exact failThen _ _
  rename_i ended
  have more : r.stream.eof = false := by simpa using ended
  refine peekThen ?_
  split
  · rename_i endif
    exact endifEnds more endif _
  · -- an `else` line: what follows the `else` starts the next arm
    have trimmed := argumentTrimmed .orElse (Text.trim r.stream.next)
    generalize Directive.orElse.argument (Text.trim r.stream.next) = rest at trimmed ⊢
    have elseIf : isInclude rest = false → Ends L (Ready L stack r phi ∧ 4 * phi + 1 ≤ fuel + 1)
        (readLine (some (isInclude rest)) >>= fun _ =>
          arm fuel rest >>= fun x => pure (([] : List Statement), Tail.elseIf x.1 x.2.1 x.2.2))
        r stack fun _ r' stack' => Ready L stack' r' phi := by
      intro plain
      refine ((readLineEnds _).carry fun ⟨ready, _⟩ => ⟨ready, more⟩).bind fun _ r1 stack1 => ?_
      refine ((arms rest r1 stack1 (phi - 1)).mono ?_ fun _ _ _ _ ready => readyMono ready (Nat.sub_le _ _)).bind
        fun _ _ _ => Ends.ofPure id
      rintro ⟨⟨-, enough⟩, -, pos, after⟩
      simp only [Option.getD_some, plain, Bool.false_eq_true, if_false] at after
      exact ⟨after, by omega⟩
    split
    · rename_i found
      exact elseIf (directiveNotInclude (by rw [trimmed]; exact found))
    · rename_i found
      exact elseIf (directiveNotInclude (by rw [trimmed]; exact found))
    · refine ((readLineEnds _).carry fun ⟨ready, _⟩ => ⟨ready, more⟩).bind fun _ r1 stack1 => ?_
      refine ((elseArms rest start r1 stack1 (phi - 1)).mono ?_
        fun _ _ _ _ ready => readyMono ready (Nat.sub_le _ _)).bind fun _ _ _ => Ends.ofPure id
      rintro ⟨⟨-, enough⟩, -, pos, after⟩
      exact ⟨by simpa [After] using after, by omega⟩
  · exact lineThen onStatement (bodies start) more _

include onStatement in
theorem elseBodyStep (bodies : ∀ start, Reads L fuel 1 (Ready L) (elseBody fuel start))
    (start : Option Location) : Reads L (fuel + 1) 1 (Ready L) (elseBody (fuel + 1) start) := by
  intro r stack phi
  rw [elseBody]
  refine atEndThen ?_
  dsimp only
  split
  · exact failThen _ _
  rename_i ended
  have more : r.stream.eof = false := by simpa using ended
  refine peekThen ?_
  split
  · rename_i endif
    exact endifEnds more (by simpa using endif) _
  · exact lineThen onStatement (bodies start) more _

include onStatement in
theorem elseArmStep (bodies : ∀ start, Reads L fuel 1 (Ready L) (elseBody fuel start))
    (rest : String) (start : Option Location) :
    Reads L (fuel + 1) 4 (fun stack r phi => After L stack r rest phi) (elseArm (fuel + 1) rest start) := by
  intro r stack phi
  rw [elseArm]
  split
  · -- nothing but a comment stands on the `else` line
    rename_i empty
    have plain : isInclude rest = false := by
      rcases Bool.or_eq_true_iff.mp empty with blank | hash
      · rw [String.isEmpty_iff.mp blank]
        rfl
      · exact commentNotInclude hash
    simp only [pure_bind]
    refine ((bodies start r stack phi).under ?_).bind fun _ _ _ => Ends.ofPure id
    exact fun ⟨after, enough⟩ => ⟨afterReady after plain, by omega⟩
  · refine ((onStatement rest r stack phi).carry ?_).bind fun _ r1 stack1 => ?_
    · exact fun ⟨after, enough⟩ => ⟨after, by omega⟩
    refine ((bodies start r1 stack1 phi).under ?_).bind fun _ _ _ => Ends.ofPure id
    exact fun ⟨⟨_, enough⟩, ready⟩ => ⟨ready, by omega⟩

end Bodies

end Steps

theorem statementReads (fuel : Nat) :
    (∀ raw, Reads L fuel 3 (fun stack r phi => After L stack r raw phi) (statement fuel raw)) ∧
    (∀ line, Reads L fuel 2 (Ready L) (arm fuel line)) ∧
    (∀ start, Reads L fuel 1 (Ready L) (armBody fuel start)) ∧
    (∀ rest start, Reads L fuel 4 (fun stack r phi => After L stack r rest phi) (elseArm fuel rest start)) ∧
    (∀ start, Reads L fuel 1 (Ready L) (elseBody fuel start)) := by
  induction fuel with
  | zero => exact ⟨fun _ => Reads.exhausted, fun _ => Reads.exhausted, fun _ => Reads.exhausted,
      fun _ _ => Reads.exhausted, fun _ => Reads.exhausted⟩
  | succ fuel ih =>
    obtain ⟨onStatement, onArm, onBody, onElseArm, onElseBody⟩ := ih
    exact ⟨statementStep onArm, armStep onBody, armBodyStep onStatement onArm onElseArm onBody,
      elseArmStep onStatement onElseBody, elseBodyStep onStatement onElseBody⟩

theorem statementsReads (fuel : Nat) : Reads L fuel 1 (Ready L) (statements fuel) := by
  induction fuel with
  | zero => exact Reads.exhausted
  | succ fuel ih =>
    intro r stack phi
    rw [statements]
    refine atEndThen ?_
    split
    · exact Ends.ofPure fun ⟨ready, _⟩ => ready
    · rename_i ended
      exact lineThen (statementReads fuel).1 ih (by simpa using ended) _

section Runs

theorem foldlLengths (l : List (String × List UInt8)) (init : Nat) :
    l.foldl (fun n f => n + f.2.length) init = init + (l.map fun f => f.2.length).sum := by
  induction l generalizing init with
  | nil => simp
  | cons a rest ih => simp only [List.foldl_cons, ih, List.map_cons, List.sum_cons]; omega

def Limits.ofStream (s : LineStream) : Limits where
  files := s.files
  width := s.files.files.foldl (fun n f => n + f.2.length) (s.pendingLines + 2)
  wide := by
    intro e mem
    have lines := (LogicalLine.expandLength 0 (Source.ofBytes e.2).lines).trans
      (Source.ofBytesLength e.2)
    have within := List.le_sum_of_mem (List.mem_map_of_mem (f := fun f => f.2.length) mem)
    rw [foldlLengths]
    omega

theorem rootFits (s : LineStream) (path : String) {lines : List (String × Nat)}
    (few : lines.length ≤ (Limits.ofStream s).width) :
    4 * (Limits.ofStream s).weight [(path, lines)] + 1 ≤ Makefile.fuelFor s := by
  set L := Limits.ofStream s
  have cost : L.cost 1 = (L.width + 1) ^ s.files.files.length := by
    simp [Limits.cost, Limits.depth, L, Limits.ofStream]
  have below : lines.length * (L.width + 1) ^ s.files.files.length ≤
      (L.width + 1) ^ (s.files.files.length + 2) :=
    calc lines.length * (L.width + 1) ^ s.files.files.length
        ≤ (L.width + 1) * (L.width + 1) ^ s.files.files.length := Nat.mul_le_mul_right _ (by omega)
      _ = (L.width + 1) ^ (s.files.files.length + 1) := (pow_succ' _ _).symm
      _ ≤ (L.width + 1) ^ (s.files.files.length + 2) := Nat.pow_le_pow_right (by omega) (by omega)
  have fuel : Makefile.fuelFor s = 4 * (L.width + 1) ^ (s.files.files.length + 2) + 4 := rfl
  simp only [Limits.weight, List.length_nil, Nat.zero_add, cost, Nat.add_zero]
  omega

theorem rootLines {s : LineStream} {path : String} {lines : List (String × Nat)}
    (tracks : Tracks s [(path, lines)]) : lines.length ≤ s.pendingLines + 1 := by
  cases tracks with
  | ended none => cases lines with
    | nil => simp
    | cons l ls => simp [Expansion.next] at none
  | ahead first _ _ _ frames =>
    cases lines with
    | nil => simp [Expansion.next] at first
    | cons l ls =>
      simp only [Expansion.next, Option.some.injEq, Prod.mk.injEq] at first
      obtain ⟨-, rfl⟩ := first
      obtain ⟨f, single, view⟩ : ∃ f, s.frames = [f] ∧ f.view = (path, ls) := by
        cases h : s.frames with
        | nil => simp [h] at frames
        | cons f more =>
          rw [h] at frames
          simp only [List.map_cons, List.cons.injEq, List.map_eq_nil_iff] at frames
          exact ⟨f, by rw [frames.2], frames.1⟩
      have logical : ls = f.logical := (congrArg Prod.snd view).symm
      have fewer := LogicalLine.expandLength f.lineNo f.pending
      simp only [LineStream.pendingLines, single, List.foldl_cons, List.foldl_nil, Nat.zero_add,
        List.length_cons]
      rw [logical]
      exact Nat.succ_le_succ fewer

/-- Run from an empty log, `m` opens no file anew while it is open, and then stops only properly. -/
def StopsProperly {α : Type} (files : FileSystem) (m : Journal α) : Prop :=
  OpensFresh files [] ((ExceptT.run m).run []).2 → ∀ h, ((ExceptT.run m).run []).1 = .error h → h.Proper

theorem stopsProperlyOfLogs {α : Type} {files : FileSystem} {m : Journal α} {res : Except Halt α}
    {events : List Notice} (logs : Logs m res events)
    (proper : OpensFresh files [] events → ∀ h, res = .error h → h.Proper) : StopsProperly files m := by
  intro fresh h stops
  obtain ⟨added, run, filtered⟩ := logs []
  rw [run] at fresh stops
  rw [List.nil_append, ← opensFreshEvents, filtered] at fresh
  exact proper fresh h stops

theorem ofStreamStops {stream : LineStream} (path : String) {stack : List String}
    {pending : Pending} (sound : Sound L stack stream) (tracks : Tracks stream pending)
    (enough : 4 * L.weight pending + 1 ≤ Makefile.fuelFor stream) :
    ∃ res events, Logs (Makefile.ofStream stream path) res events ∧
      (OpensFresh L.files stack events → ∀ h, res = .error h → h.Proper) := by
  obtain ⟨res, events, logs, good⟩ := statementsReads (Makefile.fuelFor stream)
    { stream := stream, context := Context.empty (Path.dirName (Path.absolute stream.files.cwd path)) }
    stack (L.weight pending)
  have ready : Ready L stack
      { stream := stream, context := Context.empty (Path.dirName (Path.absolute stream.files.cwd path)) }
      (L.weight pending) := ⟨sound, pending, tracks, le_refl _⟩
  unfold Makefile.ofStream
  rcases res with h | ⟨a, r'⟩
  · refine ⟨_, events, logsBindError logs, fun fresh h' same => ?_⟩
    cases same
    exact (good ⟨ready, enough⟩ fresh).1 h rfl
  · exact ⟨_, events ++ [], logsBind logs (logsPure _), fun _ _ same => by simp at same⟩

theorem parseTextStops (files : FileSystem) (text path : String) (workDir : Option String) :
    StopsProperly files (Makefile.parseText files text path workDir) := by
  let s : LineStream := { LineStream.empty files (workDir.getD (LineStream.defaultWorkDir files path)) with
    frames := [Frame.ofSource path (Source.ofText text)] }
  obtain ⟨s', closed, ahead, reads⟩ := advanceReads s
  let L := Limits.ofStream s'
  have fine : ¬Faulty s.frames := by simp [Faulty, s, Frame.ofSource, Source.ofText]
  have sound : Sound L [] s := ⟨ahead.files.symm, List.nil_prefix, by simp [s], List.nodup_nil, by simp⟩
  have fits : 4 * L.weight (s.frames.map Frame.view) + 1 ≤ Makefile.fuelFor s' :=
    rootFits s' path ((rootLines ahead.tracks).trans (by simp only [Limits.ofStream, foldlLengths]; omega))
  obtain ⟨res, events, logs, proper⟩ := ofStreamStops path (sound.readAhead ahead) ahead.tracks fits
  refine stopsProperlyOfLogs (logsBind (reads.logs fine) logs) fun fresh => proper ?_
  rw [opensFreshAppend, openAfterCloses, List.drop_nil] at fresh
  rw [List.drop_nil, show L.files = files from ahead.files]
  exact fresh.2

theorem parseFileStops (files : FileSystem) (path : String) (workDir : Option String) :
    StopsProperly files (Makefile.parseFile files path workDir) := by
  let root := Path.absolute files.cwd path
  let s := LineStream.empty files (workDir.getD (LineStream.defaultWorkDir files root))
  have program : Makefile.parseFile files path workDir = ((s.push root >>= LineStream.advance) >>=
      fun stream => Makefile.ofStream stream root) := rfl
  rw [program]
  rcases read : files.read root with why | bytes
  · -- the root makefile cannot be opened
    refine stopsProperlyOfLogs (logsBindError (logsBindError (pushFails (s := s) read))) fun _ h same => ?_
    cases same
    by_cases nul : why = .nulInPath
    · subst nul
      simpa [Halt.Proper] using FileSystem.readNul read
    · simp [nul, Halt.Proper]
  obtain ⟨s', closed, ahead, reads⟩ := advanceReads { s with frames := [Frame.ofSource root (Source.ofBytes bytes)] }
  let L := Limits.ofStream s'
  have sameFiles : L.files = files := ahead.files
  -- the root makefile is the first file opened, and the fuel covers its lines
  have opened : Sound L [root] { s with frames := [Frame.ofSource root (Source.ofBytes bytes)] } :=
    (show Sound L [] s from ⟨sameFiles.symm, List.nil_prefix, by simp [s, LineStream.empty], List.nodup_nil,
      by simp⟩).opened (by rw [sameFiles]; exact read) (by simp)
  have fits : 4 * L.weight ([Frame.ofSource root (Source.ofBytes bytes)].map Frame.view) + 1 ≤
      Makefile.fuelFor s' :=
    rootFits s' root ((rootLines ahead.tracks).trans (by simp only [Limits.ofStream, foldlLengths]; omega))
  obtain ⟨res, events, logs, proper⟩ := ofStreamStops root (opened.readAhead ahead) ahead.tracks fits
  rcases reads with reads | ⟨-, e, added, stops⟩
  · refine stopsProperlyOfLogs (logsBind (logsBind (pushOpens read) reads) logs) fun fresh => proper ?_
    rw [opensFreshAppend, openAfterAppend, openAfterCloses] at fresh
    rw [sameFiles]
    exact fresh.2
  · -- the root makefile is not UTF-8 before its first line
    refine stopsProperlyOfLogs (logsBindError (logsBind (pushOpens read) stops)) fun _ h same => ?_
    cases same
    trivial

/-- Parsing a makefile, as text or from a file, ends whenever no include opens a file that is still
open: with a makefile, with an error of the makefile, or on an include path that holds a NUL
character, which nothing handles. -/
theorem parsingStopsProperly (files : FileSystem) (workDir : Option String) :
    (∀ text path, OpensFresh files [] ((ExceptT.run (Makefile.parseText files text path workDir)).run []).2 →
      ∀ h, ((ExceptT.run (Makefile.parseText files text path workDir)).run []).1 = .error h → h.Proper) ∧
    (∀ path, OpensFresh files [] ((ExceptT.run (Makefile.parseFile files path workDir)).run []).2 →
      ∀ h, ((ExceptT.run (Makefile.parseFile files path workDir)).run []).1 = .error h → h.Proper) :=
  ⟨fun text path => parseTextStops files text path workDir, fun path => parseFileStops files path workDir⟩

theorem includedOnceStopsProperly :
    OpensFresh ⟨"/w", ["/w"], [("/w/inc.mk", [65, 32, 61, 32, 49, 10])]⟩ []
        ((ExceptT.run (Makefile.parseText ⟨"/w", ["/w"], [("/w/inc.mk", [65, 32, 61, 32, 49, 10])]⟩
          "include inc.mk\n" "Makefile" none)).run []).2 ∧
      ∀ h, ((ExceptT.run (Makefile.parseText ⟨"/w", ["/w"], [("/w/inc.mk", [65, 32, 61, 32, 49, 10])]⟩
          "include inc.mk\n" "Makefile" none)).run []).1 = .error h → h.Proper := by
  have log : ((ExceptT.run (Makefile.parseText ⟨"/w", ["/w"], [("/w/inc.mk", [65, 32, 61, 32, 49, 10])]⟩
      "include inc.mk\n" "Makefile" none)).run []).2 =
      [.openedFile "/w/inc.mk", .closedFile "/w/inc.mk", .closedFile "Makefile"] := by
    decide +kernel
  refine ⟨?_, (parsingStopsProperly ⟨"/w", ["/w"], [("/w/inc.mk", [65, 32, 61, 32, 49, 10])]⟩ none).1
    "include inc.mk\n" "Makefile" ?_⟩ <;>
  · rw [log]
    exact ⟨fun _ mem => absurd mem List.not_mem_nil, trivial⟩

theorem nulIncludeUnhandled :
    ((ExceptT.run (Makefile.parseText ⟨"/w", ["/w"], [("/w/a", [65, 32, 61, 32, 49, 10])]⟩
      "include a\x00b\n" "Makefile" none)).run []).1 = .error (.unhandled "/w/a\x00b" .nulInPath) := by
  have halted : (match ((ExceptT.run (Makefile.parseText ⟨"/w", ["/w"], [("/w/a", [65, 32, 61, 32, 49, 10])]⟩
      "include a\x00b\n" "Makefile" none)).run []).1 with
      | .error h => some h
      | .ok _ => none) = some (Halt.unhandled "/w/a\x00b" .nulInPath) := by
    decide +kernel
  generalize ((ExceptT.run (Makefile.parseText ⟨"/w", ["/w"], [("/w/a", [65, 32, 61, 32, 49, 10])]⟩
    "include a\x00b\n" "Makefile" none)).run []).1 = res at halted
  cases res with
  | error h => simpa using halted
  | ok _ => simp at halted

end Runs

end Parse

end Maketree
