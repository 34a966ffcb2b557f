import Mathlib
import Maketree.Proofs.Assignments
import Maketree.Proofs.Termination
import Maketree.Proofs.Outcomes
/-! Every syntax error the parser raises names a line: the parser never reads a line at the end of
the input. -/
namespace Maketree

def Fault.isSyntax : Fault → Bool
  | .cannotOpen _ _ | .notUtf8 _ => false
  | _ => true

def Halt.Orderly : Halt → Prop
  | .error e => e.fault.isSyntax = true → e.loc ≠ none
  | .unhandled path why => why = .nulInPath ∧ Char.ofNat 0 ∈ path.toList
  | .exhausted => True

structure LineStream.Poised (s : LineStream) : Prop where
  located : s.eof = false → s.nextLoc ≠ none
  drained : s.eof = true → s.next = ""

theorem LineStream.Poised.tabbed {s : LineStream} (poised : s.Poised) (tab : s.next.toList.head? = some '\t') :
    s.eof = false := by
  cases ended : s.eof
  · rfl
  · simp [poised.drained ended] at tab

theorem Halt.orderlyFault {f : Fault} (loc : Option Location) (file : f.isSyntax = false) :
    Halt.Orderly (.error ⟨f, loc⟩) := by
  simp [Halt.Orderly, file]

open Journal Text

namespace Frame

/-! Reading the lines of a file stops only at a line of it that is not UTF-8 text. -/

theorem pastEndLands (path : String) (failure : Option Utf8.Failure) (n : Nat) :
    Lands (pastEnd path failure n) (fun _ _ => True) Halt.Orderly := by
  unfold pastEnd
  split
  · exact .ofThrow (Halt.orderlyFault _ rfl)
  · exact .ofPure trivial

theorem continuationLands (path : String) (failure : Option Utf8.Failure) (base : String) (n : Nat)
    (lines : List String) : Lands (continuation path failure base n lines) (fun _ _ => True) Halt.Orderly := by
  fun_induction continuation path failure base n lines with
  | case1 => exact (pastEndLands _ _ _).bind fun _ _ _ => .ofPure trivial
  | case2 | case5 => exact .ofPure trivial
  | case3 base n l rest blank comment ih => exact (Lands.ofNote _).bind fun _ _ _ => ih
  | case4 base n l rest blank comment more ih => exact ih.bind fun _ _ _ => .ofPure trivial

theorem logicalFromLands (path : String) (failure : Option Utf8.Failure) (n : Nat) (lines : List String) :
    Lands (logicalFrom path failure n lines) (fun _ _ => True) Halt.Orderly := by
  fun_induction logicalFrom path failure n lines with
  | case1 => exact (pastEndLands _ _ _).bind fun _ _ _ => .ofPure trivial
  | case2 n l rest blank ih => exact ih
  | case3 => exact (continuationLands _ _ _ _ _).bind fun _ _ _ => .ofPure trivial
  | case4 => exact .ofPure trivial

theorem nextLogicalLands (f : Frame) : Lands f.nextLogical (fun _ _ => True) Halt.Orderly := by
  unfold nextLogical
  refine (logicalFromLands _ _ _ _).bind fun found _ _ => ?_
  rcases found with _ | ⟨text, start, n, left⟩
  · exact .ofPure trivial
  · exact .ofPure trivial

end Frame

namespace LineStream

theorem nextOfLands (frames : List Frame) : Lands (nextOf frames) (fun _ _ => True) Halt.Orderly := by
  induction frames with
  | nil => exact .ofPure trivial
  | cons f rest ih =>
    rw [nextOf]
    refine f.nextLogicalLands.bind fun found _ _ => ?_
    rcases found with _ | ⟨text, loc, f'⟩
    · exact (Lands.ofNote _).bind fun _ _ _ => ih
    · exact .ofPure trivial

theorem advanceLands (s : LineStream) :
    Lands s.advance (fun s' _ => s'.Poised ∧ s'.loc = s.loc) Halt.Orderly := by
  unfold advance
  refine (nextOfLands _).bind fun found _ _ => ?_
  rcases found with _ | ⟨text, loc, frames⟩
  · exact .ofPure ⟨⟨fun ended => (by cases ended), fun _ => rfl⟩, rfl⟩
  · exact .ofPure ⟨⟨fun _ => (by simp), fun ended => (by cases ended)⟩, rfl⟩

theorem pushLands (s : LineStream) (path : String) :
    Lands (s.push path) (fun s' _ => s'.loc = s.loc) Halt.Orderly := by
  unfold push
  split
  · exact (Lands.ofNote _).bind fun _ _ _ => .ofPure rfl
  · rename_i read
    exact .ofThrow ⟨rfl, FileSystem.readNul read⟩
  · exact .ofThrow (Halt.orderlyFault _ rfl)

theorem readLineLands {s : LineStream} (poised : s.Poised) (defer : Option Bool) :
    Lands (s.readLine defer) (fun x _ => x.2.Poised ∧ x.2.loc = s.nextLoc) Halt.Orderly := by
  unfold readLine
  dsimp only
  split
  · exact .ofPure ⟨⟨poised.located, poised.drained⟩, rfl⟩
  · exact (advanceLands _).bind fun s' _ after => .ofPure after

theorem includeFileLands (s : LineStream) (path : String) :
    Lands (s.includeFile path) (fun s' _ => s'.Poised ∧ s'.loc = s.loc) Halt.Orderly :=
  (pushLands s _).bind fun s' _ same =>
    (advanceLands s').mono (fun _ _ ⟨poised, kept⟩ => ⟨poised, kept.trans same⟩) fun _ => id

end LineStream

namespace Parse

theorem wordsFromNil : ∀ (acc cs : List Char), wordsFrom acc cs = [] → acc = [] ∧ ∀ c ∈ cs, isBlank c = true
  | acc, [], empty => by
    simp only [wordsFrom] at empty
    split_ifs at empty with started
    · exact ⟨List.isEmpty_iff.mp started, by simp⟩
  | acc, c :: cs, empty => by
    rw [wordsFrom] at empty
    split_ifs at empty with blank started
    · obtain ⟨-, rest⟩ := wordsFromNil [] cs empty
      exact ⟨List.isEmpty_iff.mp started, by simpa [blank] using rest⟩
    · obtain ⟨begun, -⟩ := wordsFromNil (c :: acc) cs empty
      cases begun

theorem solidStepWords {raw : String} (solid : isBlankText raw = false) : words (trim raw) ≠ [] := by
  obtain ⟨c, mem, notBlank⟩ : ∃ c ∈ raw.toList, isBlank c = false := by
    simpa [isBlankText] using solid
  have kept : c ∈ trimChars raw.toList := memDropTrailing (memDropWhile mem notBlank) notBlank
  intro empty
  have blanks := (wordsFromNil [] _ (List.map_eq_nil_iff.mp empty)).2
  rw [trim, String.toList_ofList] at blanks
  simp [blanks c kept] at notBlank

/-- A reader whose stream is poised and has read a line. -/
structure Placed (r : Reader) : Prop where
  poised : r.stream.Poised
  placed : r.stream.loc ≠ none

theorem Placed.ofStream {r r' : Reader} (placed : Placed r) (same : r'.stream = r.stream) : Placed r' :=
  ⟨same ▸ placed.poised, same ▸ placed.placed⟩

section Reading

variable {α : Type} {r : Reader}

theorem readLineRuns (poised : r.stream.Poised) (defer : Option Bool) :
    Runs (readLine defer) r (fun _ r' _ => r'.stream.Poised ∧ r'.stream.loc = r.stream.nextLoc) Halt.Orderly := by
  unfold Runs
  rw [readLineRun]
  exact (LineStream.readLineLands poised defer).bind fun _ _ after => .ofPure after

theorem readLinePlaced (poised : r.stream.Poised) (more : r.stream.eof = false) (defer : Option Bool) :
    Runs (readLine defer) r (fun _ r' _ => Placed r') Halt.Orderly :=
  (readLineRuns poised defer).mono fun _ _ _ ⟨poised', here⟩ => ⟨poised', here ▸ poised.located more⟩

theorem openIncludePlaced (placed : Placed r) (path : String) :
    Runs (openInclude path) r (fun _ r' _ => Placed r') Halt.Orderly := by
  unfold Runs
  rw [openIncludeRun]
  exact (r.stream.includeFileLands path).bind fun _ _ ⟨poised, kept⟩ => .ofPure ⟨poised, kept ▸ placed.placed⟩

theorem failPlaced (f : Fault) {loc : Option Location} (placed : loc ≠ none) {ok : α → Reader → List Notice → Prop} :
    Runs (fail f loc) r ok Halt.Orderly :=
  .ofFail _ _ fun _ => placed

theorem exportDirectivePlaced (d : Directive) (line : String) {loc : Option Location} (placed : loc ≠ none)
    (r : Reader) :
    Runs (exportDirective d line loc) r (fun _ r' _ => r'.stream = r.stream) Halt.Orderly := by
  unfold exportDirective
  dsimp only
  split
  · exact failPlaced _ placed
  split
  · exact .bind (unassignRuns _ r) fun _ _ _ same => .ofPure same
  split
  · split
    · exact failPlaced _ placed
    · exact .bind (assignRuns _ _ r) fun _ _ _ same => .ofPure same
  · exact failPlaced _ placed

theorem recipeStepPlaced (cwd raw : String) {loc : Option Location} (placed : loc ≠ none) (r : Reader) :
    Runs (step cwd raw loc) r (fun _ r' _ => r'.stream = r.stream) Halt.Orderly := by
  unfold step
  dsimp only
  split
  · exact .ofPure rfl
  split
  · exact .bind (exportDirectivePlaced _ _ placed r) fun _ _ _ same => .ofPure same
  · exact .bind (exportDirectivePlaced _ _ placed r) fun _ _ _ same => .ofPure same
  split
  · exact .bind (cargoStepRuns _ _ _ _ r) fun _ _ _ ⟨_, _, same⟩ => .ofPure (by rw [same])
  · exact .bind (changeDirectoryRuns _ _ _ r) fun _ _ _ same => .ofPure (by rw [same])
  · exact .noteThen rfl (.ofPure rfl)
  · exact .ofPure rfl

theorem recipeStepsPlaced (fuel : Nat) (cwd : String) (r : Reader) (placed : Placed r) :
    Runs (recipeSteps fuel cwd) r (fun _ r' _ => Placed r') Halt.Orderly := by
  induction fuel generalizing cwd r with
  | zero => exact .ofThrow trivial
  | succ fuel ih =>
    rw [recipeSteps]
    refine .peekThen ?_
    split
    · rename_i tab
      refine .bind (readLinePlaced placed.poised (placed.poised.tabbed (by simpa using tab)) _)
        fun line r₁ _ placed₁ => ?_
      split
      · exact ih cwd r₁ placed₁
      · refine .placeThen (.bind (recipeStepPlaced cwd line placed₁.placed r₁) fun step r₂ _ same => ?_)
        exact .bind (ih step.2 r₂ (placed₁.ofStream same)) fun _ _ _ placed₃ => .ofPure placed₃
    · exact .ofPure placed

theorem targetPlaced (fuel : Nat) (line : String) (r : Reader) (placed : Placed r) :
    Runs (target fuel line) r (fun _ r' _ => Placed r') Halt.Orderly := by
  unfold target
  refine .placeThen ?_
  split
  · exact failPlaced _ placed.placed
  dsimp only
  split
  · exact failPlaced _ placed.placed
  refine .getThen (.getThen ?_)
  have recipe : ∀ (front : List Statement) (cwd : String) (f : List Statement → Statement) (r₁ : Reader),
      Placed r₁ → Runs (pure (front, cwd) >>= fun x => recipeSteps fuel x.2 >>= fun rest => pure (f (x.1 ++ rest)))
        r₁ (fun _ r' _ => Placed r') Halt.Orderly :=
    fun _ _ _ r₁ placed₁ => .bind (.ofPure placed₁) fun _ r₂ _ placed₂ =>
      .bind (recipeStepsPlaced fuel _ r₂ placed₂) fun _ _ _ placed₃ => .ofPure placed₃
  split
  · split
    · exact recipe _ _ _ r placed
    · exact .bind (recipeStepPlaced _ _ placed.placed r) fun _ r₁ _ same => recipe _ _ _ r₁ (placed.ofStream same)
  · exact recipe _ _ _ r placed

theorem includeDirectivePlaced (line : String) (r : Reader) (placed : Placed r) :
    Runs (includeDirective line) r (fun _ r' _ => Placed r') Halt.Orderly := by
  unfold includeDirective
  split
  · dsimp only
    split
    · exact .placeThen (.noteThen rfl (.bind (openIncludePlaced placed _) fun _ _ _ placed₁ => .ofPure placed₁))
    · exact .bind (openIncludePlaced placed _) fun _ _ _ placed₁ => .ofPure placed₁
  · exact .placeThen (failPlaced _ placed.placed)

theorem failThenPlaced {β : Type} (f : Fault) {loc : Option Location} (placed : loc ≠ none)
    {g : α → ReadM β} {ok : β → Reader → List Notice → Prop} : Runs (fail f loc >>= g) r ok Halt.Orderly :=
  have failing : Runs (fail f loc : ReadM α) r (fun _ _ _ => False) Halt.Orderly := failPlaced f placed
  .bind failing fun _ _ _ never => never.elim

theorem constructReadPlaced (fuel : Nat) (line : String)
    (arms : ∀ r, Placed r → Runs (arm fuel line) r (fun _ r' _ => Placed r') Halt.Orderly) :
    ∀ (c : Construct) (r : Reader), Placed r → Runs (c.read fuel line) r (fun _ r' _ => Placed r') Halt.Orderly
  | .comment, _, placed => .ofPure placed
  | .exportLine _, r, placed =>
    .placeThen (.bind (exportDirectivePlaced _ _ placed.placed r) fun _ _ _ same => .ofPure (placed.ofStream same))
  | .assignment, r, placed => .bind (assignRuns _ _ r) fun _ _ _ same => .ofPure (placed.ofStream same)
  | .include, r, placed => .bind (includeDirectivePlaced _ r placed) fun _ _ _ placed₁ => .ofPure placed₁
  | .conditional, r, placed => .bind (arms r placed) fun _ _ _ placed₁ => .ofPure placed₁
  | .stray _, _, placed => .placeThen (failPlaced _ placed.placed)
  | .rule, r, placed => .bind (targetPlaced fuel line r placed) fun _ _ _ placed₁ => .ofPure placed₁
  | .command, _, placed => .placeThen (.noteThen rfl (.ofPure placed))

theorem statementPlaced (fuel : Nat) :
    (∀ raw r, Placed r → Runs (statement fuel raw) r (fun _ r' _ => Placed r') Halt.Orderly) ∧
    (∀ line r, Placed r → Runs (arm fuel line) r (fun _ r' _ => Placed r') Halt.Orderly) ∧
    (∀ start r, start ≠ none → Placed r →
      Runs (armBody fuel start) r (fun _ r' _ => Placed r') Halt.Orderly) ∧
    (∀ rest start r, start ≠ none → Placed r →
      Runs (elseArm fuel rest start) r (fun _ r' _ => Placed r') Halt.Orderly) ∧
    (∀ start r, start ≠ none → Placed r →
      Runs (elseBody fuel start) r (fun _ r' _ => Placed r') Halt.Orderly) := by
  induction fuel with
  | zero =>
    exact ⟨fun _ _ _ => .ofThrow trivial, fun _ _ _ => .ofThrow trivial, fun _ _ _ _ => .ofThrow trivial,
      fun _ _ _ _ _ => .ofThrow trivial, fun _ _ _ _ => .ofThrow trivial⟩
  | succ fuel ih =>
    obtain ⟨onStatement, onArm, onBody, onElseArm, onElseBody⟩ := ih
    refine ⟨fun raw r placed => ?_, fun line r placed => ?_, fun start r started placed => ?_,
      fun rest start r started placed => ?_, fun start r started placed => ?_⟩
    · rw [statementDispatch]
      exact constructReadPlaced fuel _ (onArm _) _ r placed
    · rw [arm]
      refine .placeThen ?_
      split
      · exact .bind (onBody _ r placed.placed placed) fun _ _ _ placed₁ => .ofPure placed₁
      · exact failPlaced _ placed.placed
    · rw [armBody]
      refine .atEndThen ?_
      dsimp only
      split
      · exact failThenPlaced _ started
      rename_i more
      have more : r.stream.eof = false := by simpa using more
      refine .peekThen ?_
      split
      · exact .bind (readLinePlaced placed.poised more _) fun _ _ _ placed₁ => .ofPure placed₁
      · -- after an `else`, a further arm or the last one, read from the `else` line itself
        refine .bind (readLinePlaced placed.poised more _) fun _ r₁ _ placed₁ => ?_
        split
        · exact .bind (onArm _ r₁ placed₁) fun _ _ _ placed₂ => .ofPure placed₂
        · exact .bind (onArm _ r₁ placed₁) fun _ _ _ placed₂ => .ofPure placed₂
        · exact .bind (onElseArm _ _ r₁ started placed₁) fun _ _ _ placed₂ => .ofPure placed₂
      · refine .bind (readLinePlaced placed.poised more _) fun line r₁ _ placed₁ => ?_
        refine .bind (onStatement line r₁ placed₁) fun _ r₂ _ placed₂ => ?_
        exact .bind (onBody start r₂ started placed₂) fun _ _ _ placed₃ => .ofPure placed₃
    · rw [elseArm]
      dsimp only
      split
      · exact .bind (.ofPure placed) fun _ r₁ _ placed₁ =>
          .bind (onElseBody start r₁ started placed₁) fun _ _ _ placed₂ => .ofPure placed₂
      · exact .bind (onStatement rest r placed) fun _ r₁ _ placed₁ =>
          .bind (onElseBody start r₁ started placed₁) fun _ _ _ placed₂ => .ofPure placed₂
    · rw [elseBody]
      refine .atEndThen ?_
      dsimp only
      split
      · exact failThenPlaced _ started
      rename_i more
      have more : r.stream.eof = false := by simpa using more
      refine .peekThen ?_
      split
      · exact .bind (readLinePlaced placed.poised more _) fun _ _ _ placed₁ => .ofPure placed₁
      · refine .bind (readLinePlaced placed.poised more _) fun line r₁ _ placed₁ => ?_
        refine .bind (onStatement line r₁ placed₁) fun _ r₂ _ placed₂ => ?_
        exact .bind (onElseBody start r₂ started placed₂) fun _ _ _ placed₃ => .ofPure placed₃

theorem statementsPoised (fuel : Nat) (r : Reader) (poised : r.stream.Poised) :
    Runs (statements fuel) r (fun _ r' _ => r'.stream.Poised) Halt.Orderly := by
  induction fuel generalizing r with
  | zero => exact .ofThrow trivial
  | succ fuel ih =>
    rw [statements]
    refine .atEndThen ?_
    split
    · exact .ofPure poised
    · rename_i more
      refine .bind (readLinePlaced poised (by simpa using more) _) fun line r₁ _ placed₁ => ?_
      refine .bind ((statementPlaced fuel).1 line r₁ placed₁) fun _ r₂ _ placed₂ => ?_
      exact .bind (ih r₂ placed₂.poised) fun _ _ _ poised₃ => .ofPure poised₃

end Reading

end Parse

namespace Makefile

open Parse

theorem ofStreamLands {stream : LineStream} (poised : stream.Poised) (path : String) :
    Lands (ofStream stream path) (fun _ _ => True) Halt.Orderly := by
  unfold ofStream
  exact Lands.bind (statementsPoised _ _ poised) fun _ _ _ => .ofPure trivial

theorem parseTextLands (files : FileSystem) (text path : String) (workDir : Option String) :
    Lands (parseText files text path workDir) (fun _ _ => True) Halt.Orderly :=
  (LineStream.advanceLands _).bind fun _ _ ⟨poised, _⟩ => ofStreamLands poised path

theorem parseFileLands (files : FileSystem) (path : String) (workDir : Option String) :
    Lands (parseFile files path workDir) (fun _ _ => True) Halt.Orderly := by
  have opened : Lands (LineStream.openFile files (Path.absolute files.cwd path) workDir) (fun s _ => s.Poised)
      Halt.Orderly :=
    (LineStream.pushLands _ _).bind fun s _ _ =>
      (LineStream.advanceLands s).mono (fun _ _ after => after.1) fun _ => id
  exact opened.bind fun _ _ poised => ofStreamLands poised _

theorem parseFailsInOrder (files : FileSystem) (workDir : Option String) :
    (∀ raw, isBlankText raw = false → words (trim raw) ≠ []) ∧
    (∀ text path h, ((ExceptT.run (parseText files text path workDir)).run []).1 = .error h →
      h.Orderly ∧
        (OpensFresh files [] ((ExceptT.run (parseText files text path workDir)).run []).2 → h.Proper)) ∧
    (∀ path h, ((ExceptT.run (parseFile files path workDir)).run []).1 = .error h →
      h.Orderly ∧ (OpensFresh files [] ((ExceptT.run (parseFile files path workDir)).run []).2 → h.Proper)) :=
  ⟨fun _ solid => solidStepWords solid,
    fun text path _ halted => ⟨(parseTextLands files text path workDir).halts halted,
      fun fresh => parseTextStops files text path workDir fresh _ halted⟩,
    fun path _ halted => ⟨(parseFileLands files path workDir).halts halted,
      fun fresh => parseFileStops files path workDir fresh _ halted⟩⟩

theorem unterminatedFailsAtItsLine :
    isBlankText "\tcargo build" = false ∧ words (trim "\tcargo build") ≠ [] ∧
      ((ExceptT.run (parseText ⟨"/w", ["/w"], []⟩ "ifeq (a,b)\n\tcargo build\n" "Makefile" none)).run []).1 =
        .error (.error ⟨.unterminatedConditional, some ⟨"Makefile", 1⟩⟩) ∧
      OpensFresh ⟨"/w", ["/w"], []⟩ []
        ((ExceptT.run (parseText ⟨"/w", ["/w"], []⟩ "ifeq (a,b)\n\tcargo build\n" "Makefile" none)).run []).2 ∧
      Halt.Orderly (.error ⟨.unterminatedConditional, some ⟨"Makefile", 1⟩⟩) ∧
      Halt.Proper (.error ⟨.unterminatedConditional, some ⟨"Makefile", 1⟩⟩) := by
  -- one run of the parse gives both its halt and its log
  have ran : ((match ((ExceptT.run (parseText ⟨"/w", ["/w"], []⟩ "ifeq (a,b)\n\tcargo build\n" "Makefile"
      none)).run []).1 with
      | .error h => some h
      | .ok _ => none), ((ExceptT.run (parseText ⟨"/w", ["/w"], []⟩ "ifeq (a,b)\n\tcargo build\n" "Makefile"
      none)).run []).2) = (some (.error ⟨.unterminatedConditional, some ⟨"Makefile", 1⟩⟩),
        [.closedFile "Makefile", .unhandled (some ⟨"Makefile", 2⟩) "cargo build"]) := by
    decide +kernel
  obtain ⟨stepWords, onText, -⟩ := parseFailsInOrder ⟨"/w", ["/w"], []⟩ none
  have onRun := onText "ifeq (a,b)\n\tcargo build\n" "Makefile" (.error ⟨.unterminatedConditional, some ⟨"Makefile", 1⟩⟩)
  generalize (ExceptT.run (parseText ⟨"/w", ["/w"], []⟩ "ifeq (a,b)\n\tcargo build\n" "Makefile" none)).run [] =
    run at ran onRun ⊢
  obtain ⟨res, log⟩ := run
  simp only [Prod.mk.injEq] at ran
  obtain ⟨found, rfl⟩ := ran
  have halted : res = .error (.error ⟨.unterminatedConditional, some ⟨"Makefile", 1⟩⟩) := by
    cases res with
    | error h => simpa using found
    | ok _ => simp at found
  have fresh : OpensFresh ⟨"/w", ["/w"], []⟩ [] [.closedFile "Makefile", .unhandled (some ⟨"Makefile", 2⟩) "cargo build"] := by
    simp only [OpensFresh]
  exact ⟨by decide, stepWords _ (by decide), halted, fresh, (onRun halted).1, (onRun halted).2 fresh⟩

end Makefile

end Maketree
