import Mathlib
import Maketree.Proofs.Constructs
import Maketree.Proofs.ReadSteps
/-! Reading never depends on its log: each computation of the reader ends one way. -/
namespace Maketree

namespace Journal

variable {α β : Type}

def Decided (m : Journal α) : Prop := ∃ r, Gives m r

namespace Decided

theorem ofPure (a : α) : Decided (pure a : Journal α) := ⟨_, givesPure a⟩

theorem ofThrow (h : Halt) : Decided (throw h : Journal α) := ⟨_, givesThrow h⟩

theorem ofNote (n : Notice) : Decided (note n) := ⟨_, givesNote n⟩

theorem bind {m : Journal α} {f : α → Journal β} (first : Decided m) (next : ∀ a, Decided (f a)) :
    Decided (m >>= f) := by
  obtain ⟨r, gives⟩ := first
  rcases r with e | a
  · exact ⟨_, givesBindError gives⟩
  · obtain ⟨r', next⟩ := next a
    exact ⟨r', givesBind gives next⟩

end Decided

theorem givesBindOk {m : Journal α} {f : α → Journal β} {b : β} (decided : Decided m)
    (next : ∀ a, Decided (f a)) (gives : Gives (m >>= f) (.ok b)) : ∃ a, Gives m (.ok a) ∧ Gives (f a) (.ok b) := by
  obtain ⟨res, first⟩ := decided
  rcases res with h | a
  · exact absurd (givesUnique gives (givesBindError first)) (by simp)
  · obtain ⟨res', second⟩ := next a
    obtain rfl := givesUnique (givesBind first second) gives
    exact ⟨a, first, second⟩

end Journal

open Journal

namespace Frame

theorem pastEndDecided (path : String) (failure : Option Text.Utf8.Failure) (n : Nat) :
    Decided (pastEnd path failure n) := by
  unfold pastEnd
  split
  · exact .ofThrow _
  · exact .ofPure _

theorem continuationDecided (path : String) (failure : Option Text.Utf8.Failure) (base : String) (n : Nat)
    (lines : List String) : Decided (continuation path failure base n lines) := by
  fun_induction continuation path failure base n lines with
  | case1 => exact (pastEndDecided _ _ _).bind fun _ => .ofPure _
  | case2 | case5 => exact .ofPure _
  | case3 base n l rest blank comment ih => exact (Decided.ofNote _).bind fun _ => ih
  | case4 base n l rest blank comment more ih => exact ih.bind fun _ => .ofPure _

theorem logicalFromDecided (path : String) (failure : Option Text.Utf8.Failure) (n : Nat)
    (lines : List String) : Decided (logicalFrom path failure n lines) := by
  fun_induction logicalFrom path failure n lines with
  | case1 => exact (pastEndDecided _ _ _).bind fun _ => .ofPure _
  | case2 n l rest blank ih => exact ih
  | case3 => exact (continuationDecided _ _ _ _ _).bind fun _ => .ofPure _
  | case4 => exact .ofPure _

theorem nextLogicalDecided (f : Frame) : Decided f.nextLogical := by
  unfold nextLogical
  refine (logicalFromDecided _ _ _ _).bind fun found => ?_
  rcases found with _ | ⟨text, start, n, left⟩
  · exact .ofPure _
  · exact .ofPure _

end Frame

namespace LineStream

theorem nextOfDecided (frames : List Frame) : Decided (nextOf frames) := by
  induction frames with
  | nil => exact .ofPure _
  | cons f rest ih =>
    rw [nextOf]
    refine f.nextLogicalDecided.bind fun found => ?_
    rcases found with _ | ⟨text, loc, f'⟩
    · exact (Decided.ofNote _).bind fun _ => ih
    · exact .ofPure _

theorem advanceDecided (s : LineStream) : Decided s.advance := by
  unfold advance
  refine (nextOfDecided _).bind fun found => ?_
  rcases found with _ | ⟨text, loc, frames⟩
  · exact .ofPure _
  · exact .ofPure _

theorem pushDecided (s : LineStream) (path : String) : Decided (s.push path) := by
  unfold push
  split
  · exact (Decided.ofNote _).bind fun _ => .ofPure _
  · exact .ofThrow _
  · exact .ofThrow _

theorem readLineDecided (s : LineStream) (defer : Option Bool) : Decided (s.readLine defer) := by
  unfold readLine
  dsimp only
  split
  · exact .ofPure _
  · exact (advanceDecided _).bind fun _ => .ofPure _

theorem includeFileDecided (s : LineStream) (path : String) : Decided (s.includeFile path) :=
  (pushDecided s _).bind advanceDecided

end LineStream

namespace Parse

variable {α β : Type}

/-- A reading step ends one way from each reader, whatever the log holds. -/
def Decides (p : ReadM α) : Prop := ∀ r, Decided (p.run r)

namespace Decides

theorem ofPure (a : α) : Decides (pure a : ReadM α) := fun _ => .ofPure _

theorem ofThrow (h : Halt) : Decides (throw h : ReadM α) := fun _ => .ofThrow _

theorem ofFail (f : Fault) (loc : Option Location) : Decides (fail f loc : ReadM α) := ofThrow _

theorem ofNote (n : Notice) : Decides (note n) := fun _ => (Decided.ofNote n).bind fun _ => .ofPure _

theorem bind {p : ReadM α} {f : α → ReadM β} (first : Decides p) (next : ∀ a, Decides (f a)) :
    Decides (p >>= f) := by
  intro r
  rw [StateT.run_bind]
  exact (first r).bind fun ⟨a, r'⟩ => next a r'

theorem failThen {g : α → ReadM β} (f : Fault) (loc : Option Location) : Decides (fail f loc >>= g) := by
  rw [fail, Flat.throwBind]
  exact ofThrow _

theorem ofGet {f : Reader → ReadM α} (next : ∀ r, Decides (f r)) : Decides (get >>= f) :=
  fun r => next r r

theorem ofKeeps {p : ReadM α} (keeps : Keeps p) : Decides p := by
  intro r
  obtain ⟨res, logs, -⟩ := keeps r
  exact ⟨res, logs.gives⟩

theorem place : Decides Parse.place := ofKeeps Keeps.place

theorem peek : Decides Parse.peek := fun _ => .ofPure _

theorem atEnd : Decides Parse.atEnd := fun _ => .ofPure _

theorem readLine (defer : Option Bool) : Decides (Parse.readLine defer) := by
  intro r
  rw [readLineRun]
  exact (r.stream.readLineDecided defer).bind fun _ => .ofPure _

theorem openInclude (path : String) : Decides (Parse.openInclude path) := by
  intro r
  rw [openIncludeRun]
  exact (r.stream.includeFileDecided path).bind fun _ => .ofPure _

theorem recipeSteps (fuel : Nat) (cwd : String) : Decides (Parse.recipeSteps fuel cwd) := by
  induction fuel generalizing cwd with
  | zero => exact ofThrow _
  | succ fuel ih =>
    rw [Parse.recipeSteps]
    refine peek.bind fun next => ?_
    split
    · refine (readLine _).bind fun line => ?_
      split
      · exact ih cwd
      · exact place.bind fun loc => (ofKeeps (Keeps.closed.step _ _ _)).bind
          fun step => (ih step.2).bind fun _ => ofPure _
    · exact ofPure _

theorem target (fuel : Nat) (line : String) : Decides (Parse.target fuel line) := by
  unfold Parse.target
  refine place.bind fun loc => ?_
  split
  · exact ofFail _ _
  dsimp only
  split
  · exact ofFail _ _
  refine ofGet fun _ => ofGet fun _ => ?_
  have recipe : ∀ (front : List Statement) (cwd : String) (f : List Statement → Statement),
      Decides (pure (front, cwd) >>= fun x => Parse.recipeSteps fuel x.2 >>= fun rest => pure (f (x.1 ++ rest))) :=
    fun _ _ _ => (ofPure _).bind fun _ => (recipeSteps _ _).bind fun _ => ofPure _
  split
  · split
    · exact recipe _ _ _
    · exact (ofKeeps (Keeps.closed.step _ _ _)).bind fun _ => recipe _ _ _
  · exact recipe _ _ _

theorem includeDirective (line : String) : Decides (Parse.includeDirective line) := by
  unfold Parse.includeDirective
  split
  · dsimp only
    split
    · exact place.bind fun _ => (ofNote _).bind fun _ => (openInclude _).bind fun _ => ofPure _
    · exact (openInclude _).bind fun _ => ofPure _
  · exact place.bind fun _ => ofFail _ _

theorem constructRead (fuel : Nat) (line : String) (arms : ∀ line, Decides (arm fuel line)) :
    ∀ c : Construct, Decides (c.read fuel line)
  | .comment => ofPure _
  | .exportLine _ => place.bind fun _ => (ofKeeps (Keeps.closed.exportDirective _ _ _)).bind fun _ => ofPure _
  | .assignment => (ofKeeps (Keeps.assign _ _)).bind fun _ => ofPure _
  | .include => (includeDirective _).bind fun _ => ofPure _
  | .conditional => (arms _).bind fun _ => ofPure _
  | .stray _ => place.bind fun _ => ofFail _ _
  | .rule => (target _ _).bind fun _ => ofPure _
  | .command => place.bind fun _ => (ofNote _).bind fun _ => ofPure _

theorem statementDecides (fuel : Nat) :
    (∀ raw, Decides (statement fuel raw)) ∧ (∀ line, Decides (arm fuel line)) ∧
    (∀ start, Decides (armBody fuel start)) ∧ (∀ rest start, Decides (elseArm fuel rest start)) ∧
    (∀ start, Decides (elseBody fuel start)) := by
  induction fuel with
  | zero => exact ⟨fun _ => ofThrow _, fun _ => ofThrow _, fun _ => ofThrow _, fun _ _ => ofThrow _,
      fun _ => ofThrow _⟩
  | succ fuel ih =>
    obtain ⟨onStatement, onArm, onBody, onElseArm, onElseBody⟩ := ih
    refine ⟨fun raw => ?_, fun line => ?_, fun start => ?_, fun rest start => ?_, fun start => ?_⟩
    · rw [statementDispatch]
      exact constructRead fuel _ onArm _
    · rw [arm]
      refine place.bind fun start => ?_
      split
      · exact (onBody _).bind fun _ => ofPure _
      · exact ofFail _ _
    · rw [armBody]
      refine atEnd.bind fun ended => ?_
      dsimp only
      split
      · exact failThen _ _
      refine peek.bind fun next => ?_
      split
      · exact (readLine _).bind fun _ => ofPure _
      · -- after an `else`, a further arm or the last one
        refine (readLine _).bind fun _ => ?_
        split
        · exact (onArm _).bind fun _ => ofPure _
        · exact (onArm _).bind fun _ => ofPure _
        · exact (onElseArm _ _).bind fun _ => ofPure _
      · exact (readLine _).bind fun _ => (onStatement _).bind fun _ => (onBody _).bind fun _ => ofPure _
    · rw [elseArm]
      dsimp only
      split
      · exact (ofPure _).bind fun _ => (onElseBody _).bind fun _ => ofPure _
      · exact (onStatement _).bind fun _ => (onElseBody _).bind fun _ => ofPure _
    · rw [elseBody]
      refine atEnd.bind fun ended => ?_
      dsimp only
      split
      · exact failThen _ _
      refine peek.bind fun next => ?_
      split
      · exact (readLine _).bind fun _ => ofPure _
      · exact (readLine _).bind fun _ => (onStatement _).bind fun _ => (onElseBody _).bind fun _ => ofPure _

theorem statements (fuel : Nat) : Decides (Parse.statements fuel) := by
  induction fuel with
  | zero => exact ofThrow _
  | succ fuel ih =>
    rw [Parse.statements]
    refine atEnd.bind fun ended => ?_
    split
    · exact ofPure _
    · exact (readLine _).bind fun _ => ((statementDecides fuel).1 _).bind fun _ => ih.bind fun _ => ofPure _

end Decides

end Parse

namespace Makefile

theorem ofStreamDecided (stream : LineStream) (path : String) : Decided (ofStream stream path) := by
  unfold ofStream
  exact (Parse.Decides.statements _ _).bind fun _ => .ofPure _

theorem parseTextDecided (files : FileSystem) (text path : String) (workDir : Option String) :
    Decided (parseText files text path workDir) :=
  (LineStream.advanceDecided _).bind fun s => ofStreamDecided s path

end Makefile

end Maketree
