import Mathlib
import Maketree.Proofs.MirrorStatements
import Maketree.Proofs.Termination
/-! The mirror's loop of statements follows the flat reading of the input, piece by piece. -/
namespace Maketree

open Journal Expansion Text
open LineStream (Tracks Faulty ReadAhead upcoming upcomingOf)

namespace Parse

namespace Mirror

variable {M : Mirror}

def Follows (M : Mirror) (p : ReadM (List Statement × Trace)) : Prop :=
  ∀ past before r, Runs p r (LoopFollows M past before r) ⊤

theorem loopStepShape (fuel : Nat) (body : ReadM (List Statement × Trace)) :
    (do
      let (raw, noted) ← Flat.readNoting none loopUse
      let (first, more) ← Flat.statement fuel raw
      let (steps, rest) ← body
      pure (first ++ steps, noted ++ more ++ rest)) =
    Flat.readNoting none loopUse >>= fun a =>
      (Flat.statement fuel a.1 >>= fun x => body >>= fun y => pure (x.1 ++ y.1, x.2 ++ y.2)) >>= fun b =>
        pure (b.1, a.2 ++ b.2) := by
  refine bind_congr fun line => ?_
  obtain ⟨raw, noted⟩ := line
  simp only [bind_assoc, pure_bind]
  refine bind_congr fun x => bind_congr fun y => ?_
  obtain ⟨first, more⟩ := x
  obtain ⟨steps, rest⟩ := y
  simp [List.append_assoc]

theorem statementAhead (fuel : Nat) {u : String} (notOpen : opensConditional u = false) (r : Reader) :
    Runs (Flat.statement fuel u) r (fun _ r₁ _ => (isInclude u = false → r.stream.Ahead) → r₁.stream.Ahead) ⊤ := by
  cases included : isInclude u with
  | false => exact ((statementInOrder fuel).1 u r).mono fun _ _ _ met ahead => met.ahead (ahead rfl)
  | true =>
    cases fuel with
    | zero => exact Runs.ofThrow trivial
    | succ fuel =>
      have notRule : headsRule u = false := by simp [headsRule, included]
      rw [Flat.statement, if_neg (by simp [notOpen]), if_neg (by simp [notRule]), statementIncludes fuel included,
        bind_assoc]
      refine (includeDirectiveRuns _ r).bind fun _ r₁ _ opened => ?_
      obtain ⟨_, _, _, _, _, _, ahead, _⟩ := opened
      simp only [pure_bind]
      exact Runs.ofPure fun _ => ⟨_, ahead.tracks⟩

theorem LoopFollows.dropOnly {past : Trace} {before : List String} {r : Reader} {d : Option Bool}
    (more : r.stream.eof = false) (moves : d.getD (isInclude r.stream.next) = false) :
    Runs (Flat.readNoting d (fun _ => .consumed none) >>= fun a => pure ([], a.2)) r (LoopFollows M past before r) ⊤ := by
  have nothing := @LoopFollows.dropThen M past before r d (fun _ => .consumed none) (fun _ => pure ([], [])) more rfl
    moves fun _ => LoopFollows.done
  simpa only [pure_bind, List.append_nil] using nothing

theorem loopStepFollows (valid : M.Valid) (plain : ∀ m ∈ M.T, m.Plain) {fuel : Nat}
    {body : ReadM (List Statement × Trace)}
    (opened : ∀ raw, opensConditional raw = true → M.Follows (Flat.statement fuel raw)) (rest : M.Follows body)
    (restInOrder : ∀ r, InOrder True body r) {past : Trace} {before : List String} {r : Reader}
    (more : r.stream.eof = false) :
    Runs (do
      let (raw, noted) ← Flat.readNoting none loopUse
      let (first, more) ← Flat.statement fuel raw
      let (steps, rest) ← body
      pure (first ++ steps, noted ++ more ++ rest)) r (LoopFollows M past before r) ⊤ := by
  rw [loopStepShape]
  have after : ∀ (x : List Statement × Trace) r₁ (events : List Notice) past' before', Runs body r₁ (fun y r₂ more =>
      MetInOrder True r₁ y.2 r₂ ∧ LoopFollows M past' before' r₁ y r₂ more) ⊤ :=
    fun _ r₁ _ _ _ => (restInOrder r₁).and (rest _ _ r₁)
  by_cases opens : opensConditional r.stream.next = true
  · refine @LoopFollows.dropThen M past before r none loopUse (fun raw => Flat.statement fuel raw >>= fun x =>
      body >>= fun y => pure (x.1 ++ y.1, x.2 ++ y.2)) more (by simp [loopUse, opens]) (opensNotInclude opens)
      fun r₁ => LoopFollows.seq ?_ fun x r₂ events => after x r₂ events _ _
    exact (((statementInOrder fuel).1 _ r₁).and (opened _ opens _ _ r₁)).mono
      fun _ _ _ both => ⟨both.1.ahead, both.2⟩
  · have notOpen : opensConditional r.stream.next = false := by simpa using opens
    have kept : loopUse r.stream.next = .kept := by simp [loopUse, notOpen]
    refine @LoopFollows.lineThen M past before r none loopUse r.stream.next (fun raw => Flat.statement fuel raw >>=
      fun x => body >>= fun y => pure (x.1 ++ y.1, x.2 ++ y.2)) more (by rw [kept]; rfl) rfl
      fun r₁ => StatementFollows.seq ?_ fun x r₂ events => after x r₂ events _ _
    exact (statementAhead fuel notOpen r₁).and (keptFollows valid plain fuel notOpen r₁)

theorem elseUseLast {rest : String} (notIfeq : directive? rest ≠ some .ifeq) (notIfneq : directive? rest ≠ some .ifneq) :
    elseUse rest = .consumed (if rest.isEmpty || startsWithHash rest then none else some rest) := by
  unfold elseUse
  split <;> simp_all

theorem elseFurtherFollows {fuel : Nat} {rest : String} (trimmed : trim rest = rest)
    (further : directive? rest = some .ifeq ∨ directive? rest = some .ifneq) (arms : M.Follows (Flat.arm fuel rest))
    {past : Trace} {before : List String} {r : Reader} (more : r.stream.eof = false) :
    Runs (Flat.readNoting (some (isInclude rest)) (fun _ => elseUse rest) >>= fun a =>
      Flat.arm fuel rest >>= fun b => pure (b.1, a.2 ++ b.2)) r (LoopFollows M past before r) ⊤ := by
  have dropped : elseUse rest = .consumed none := by
    unfold elseUse
    rcases further with found | found <;> simp [found]
  exact @LoopFollows.dropThen M past before r _ _ (fun _ => Flat.arm fuel rest) more dropped (elseUsePlain trimmed dropped)
    fun r₁ => arms _ _ r₁

theorem elseLastFollows {fuel : Nat} {rest : String} {start : Option Location} (trimmed : trim rest = rest)
    (notIfeq : directive? rest ≠ some .ifeq) (notIfneq : directive? rest ≠ some .ifneq)
    (emptyElse : (rest.isEmpty || startsWithHash rest) = true → M.Follows (Flat.elseArm fuel rest start))
    (keptElse : opensConditional rest = false → (rest.isEmpty || startsWithHash rest) = false → ∀ past before r,
      Runs (Flat.elseArm fuel rest start) r (StatementFollows M past before rest r) ⊤)
    {past : Trace} {before : List String} {r : Reader} (more : r.stream.eof = false) :
    Runs (Flat.readNoting (some (isInclude rest)) (fun _ => elseUse rest) >>= fun a =>
      Flat.elseArm fuel rest start >>= fun b => pure (b.1, a.2 ++ b.2)) r (LoopFollows M past before r) ⊤ := by
  have use := elseUseLast notIfeq notIfneq
  by_cases empty : (rest.isEmpty || startsWithHash rest) = true
  · have dropped : elseUse rest = .consumed none := by simp [use, empty]
    exact @LoopFollows.dropThen M past before r _ _ (fun _ => Flat.elseArm fuel rest start) more dropped
      (elseUsePlain trimmed dropped) fun r₁ => emptyElse empty _ _ r₁
  · have notOpen : opensConditional rest = false := by
      simp [opensConditional, trimmed, notIfeq, notIfneq]
    exact @LoopFollows.lineThen M past before r _ _ rest (fun _ => Flat.elseArm fuel rest start) more
      (by simp [use, empty, Use.standIn]) rfl fun r₁ => keptElse notOpen (by simpa using empty) _ _ r₁

theorem armFollows {fuel : Nat} (bodies : ∀ start, M.Follows (Flat.armBody fuel start)) (line : String) :
    M.Follows (Flat.arm (fuel + 1) line) := by
  intro past before r
  rw [Flat.arm]
  refine Runs.placeThen ?_
  split
  · exact bodies _ past before r
  · exact Runs.ofFail _ _ trivial

theorem armBodyFollows (valid : M.Valid) (plain : ∀ m ∈ M.T, m.Plain) {fuel : Nat}
    (openers : ∀ raw, opensConditional raw = true → M.Follows (Flat.statement fuel raw))
    (arms : ∀ line, M.Follows (Flat.arm fuel line)) (bodies : ∀ start, M.Follows (Flat.armBody fuel start))
    (emptyElses : ∀ rest start, (rest.isEmpty || startsWithHash rest) = true → M.Follows (Flat.elseArm fuel rest start))
    (elses : ∀ rest start, opensConditional rest = false → (rest.isEmpty || startsWithHash rest) = false →
      ∀ past before r, Runs (Flat.elseArm fuel rest start) r (StatementFollows M past before rest r) ⊤)
    (start : Option Location) : M.Follows (Flat.armBody (fuel + 1) start) := by
  intro past before r
  rw [Flat.armBody]
  refine Runs.atEndThen ?_
  split
  · exact Runs.failThen _ _ trivial
  rename_i notEnd
  have more : r.stream.eof = false := by simpa using notEnd
  refine Runs.peekThen ?_
  dsimp only
  split
  · rename_i found
    exact LoopFollows.dropOnly more (directiveNotInclude found)
  · have trimmed := argumentTrimmed .orElse (trim r.stream.next)
    generalize Directive.orElse.argument (trim r.stream.next) = rest at trimmed ⊢
    have further := fun kind => @elseFurtherFollows M fuel rest trimmed kind (arms rest) past before r more
    have last := fun notIfeq notIfneq => @elseLastFollows M fuel rest start trimmed notIfeq notIfneq
      (emptyElses rest start) (elses rest start) past before r more
    generalize kind : directive? rest = d at further last
    rcases d with _ | ⟨_ | _ | _ | _ | _ | _⟩
    · exact last (by simp) (by simp)
    · exact further (.inl rfl)
    · exact further (.inr rfl)
    all_goals exact last (by simp) (by simp)
  · exact loopStepFollows valid plain openers (bodies start) ((statementInOrder fuel).2.2.1 start) more

theorem emptyElseFollows {fuel : Nat} (elseBodies : ∀ start, M.Follows (Flat.elseBody fuel start))
    {rest : String} (start : Option Location) (empty : (rest.isEmpty || startsWithHash rest) = true) :
    M.Follows (Flat.elseArm (fuel + 1) rest start) := by
  intro past before r
  rw [Flat.elseArm]
  simp only [empty, if_true, pure_bind, List.nil_append]
  refine (elseBodies start past before r).bind fun _ _ _ follows => Runs.ofPure ?_
  simpa using follows

theorem keptElseFollows (valid : M.Valid) (plain : ∀ m ∈ M.T, m.Plain) {fuel : Nat}
    (elseBodies : ∀ start, M.Follows (Flat.elseBody fuel start)) {rest : String} (start : Option Location)
    (notOpen : opensConditional rest = false) (solid : (rest.isEmpty || startsWithHash rest) = false)
    {past : Trace} {before : List String} {r : Reader} :
    Runs (Flat.elseArm (fuel + 1) rest start) r (StatementFollows M past before rest r) ⊤ := by
  rw [Flat.elseArm]
  simp only [solid, Bool.false_eq_true, if_false]
  exact StatementFollows.seq ((statementAhead fuel notOpen r).and (keptFollows valid plain fuel notOpen r))
    fun _ r₁ _ => ((statementInOrder fuel).2.2.2.2 start r₁).and (elseBodies start _ _ r₁)

theorem elseBodyFollows (valid : M.Valid) (plain : ∀ m ∈ M.T, m.Plain) {fuel : Nat}
    (openers : ∀ raw, opensConditional raw = true → M.Follows (Flat.statement fuel raw))
    (elseBodies : ∀ start, M.Follows (Flat.elseBody fuel start)) (start : Option Location) :
    M.Follows (Flat.elseBody (fuel + 1) start) := by
  intro past before r
  rw [Flat.elseBody]
  refine Runs.atEndThen ?_
  split
  · exact Runs.failThen _ _ trivial
  rename_i notEnd
  have more : r.stream.eof = false := by simpa using notEnd
  refine Runs.peekThen ?_
  dsimp only
  split
  · rename_i found
    exact LoopFollows.dropOnly more (directiveNotInclude (by simpa using found))
  · exact loopStepFollows valid plain openers (elseBodies start) ((statementInOrder fuel).2.2.2.2 start) more

theorem flatFollows (valid : M.Valid) (plain : ∀ m ∈ M.T, m.Plain) (fuel : Nat) :
    (∀ raw, opensConditional raw = true → M.Follows (Flat.statement fuel raw)) ∧
    (∀ line, M.Follows (Flat.arm fuel line)) ∧
    (∀ start, M.Follows (Flat.armBody fuel start)) ∧
    (∀ rest start, (rest.isEmpty || startsWithHash rest) = true → M.Follows (Flat.elseArm fuel rest start)) ∧
    (∀ rest start, opensConditional rest = false → (rest.isEmpty || startsWithHash rest) = false →
      ∀ past before r, Runs (Flat.elseArm fuel rest start) r (StatementFollows M past before rest r) ⊤) ∧
    (∀ start, M.Follows (Flat.elseBody fuel start)) := by
  induction fuel with
  | zero =>
    exact ⟨fun _ _ _ _ _ => Runs.ofThrow trivial, fun _ _ _ _ => Runs.ofThrow trivial, fun _ _ _ _ => Runs.ofThrow trivial,
      fun _ _ _ _ _ _ => Runs.ofThrow trivial, fun _ _ _ _ _ _ _ => Runs.ofThrow trivial, fun _ _ _ _ => Runs.ofThrow trivial⟩
  | succ fuel ih =>
    obtain ⟨openers, arms, bodies, emptyElses, elses, elseBodies⟩ := ih
    refine ⟨fun raw opens past before r => ?_, armFollows bodies,
      armBodyFollows valid plain openers arms bodies emptyElses elses, fun _ start => emptyElseFollows elseBodies start,
      fun _ start notOpen solid _ _ _ => keptElseFollows valid plain elseBodies start notOpen solid,
      elseBodyFollows valid plain openers elseBodies⟩
    rw [Flat.statement, if_pos opens]
    exact arms _ past before r

theorem statementsFollow (valid : M.Valid) (plain : ∀ m ∈ M.T, m.Plain) (fuel : Nat) :
    M.Follows (Flat.statements fuel) := by
  induction fuel with
  | zero => exact fun _ _ _ => Runs.ofThrow trivial
  | succ fuel ih =>
    intro past before r
    rw [Flat.statements]
    refine Runs.atEndThen ?_
    split
    · exact LoopFollows.done
    · rename_i notEnd
      exact loopStepFollows valid plain (flatFollows valid plain fuel).1 ih (statementsInOrder fuel)
        (by simpa using notEnd)

end Mirror

theorem statementsEnd (fuel : Nat) (r : Reader) :
    Runs (Flat.statements fuel) r (fun _ r₁ _ => r₁.stream.eof = true) ⊤ := by
  induction fuel generalizing r with
  | zero => exact Runs.ofThrow trivial
  | succ fuel ih =>
    rw [Flat.statements]
    refine Runs.atEndThen ?_
    split
    · rename_i ended
      exact Runs.ofPure ended
    · refine (readNotingRuns none loopUse r).bind fun line r₁ _ _ => ?_
      refine ((statementInOrder fuel).1 line.1 r₁).bind fun _ r₂ _ _ => ?_
      exact (ih r₂).bind fun _ _ _ ended => Runs.ofPure ended

namespace Mirror

variable {M : Mirror}

theorem Ready.ended {past : Trace} {before : List String} {r r' : Reader} (ready : M.Ready past before r r')
    (ended : r.stream.eof = true) : r'.stream.eof = true := by
  obtain ⟨pending, pending', aligned⟩ := ready
  have used : Expansion.next pending = none := by
    cases aligned.tracks with
    | ended none _ _ => exact none
    | ahead _ eof _ _ _ => simp [eof] at ended
  cases aligned.tracks' with
  | ended _ eof _ => exact eof
  | ahead first _ _ _ _ => simp [aligned.ended used] at first

theorem readsFlattened (valid : M.Valid) {r r' : Reader} {pending pending' : Pending}
    (aligned : M.Aligned [] [] r r' pending pending') {fuel : Nat} {x : List Statement × Trace} {r₁ : Reader}
    {events : List Notice} (flat : Logs ((Flat.statements fuel).run r) (.ok (x, r₁)) events) (met : M.T = x.2)
    (opened : openedPaths events = M.opened) :
    ∃ r₁', r₁'.context = r₁.context ∧
      ∀ n, 1 + 3 * M.budget r' [] ≤ n → Gives ((statements n).run r') (.ok (x.1, r₁')) := by
  have plain : ∀ m ∈ M.T, m.Plain := met ▸ ((statementsInOrder fuel r).holds flat).plain
  have follows := (statementsFollow valid plain fuel [] [] r).holds flat
  have ended := (statementsEnd fuel r).holds flat
  have cont : Continues [] r₁.stream.upcoming := by simp [upcoming, ended]
  obtain ⟨r₁', cost, absorbs, ready₁, budget⟩ :=
    follows r' ⟨pending, pending', aligned⟩ [] (by simp [met]) cont (by simp [opened])
  refine ⟨r₁', ?_, fun n enough => ?_⟩
  · obtain ⟨_, _, aligned₁⟩ := ready₁
    exact aligned₁.agree.context
  · -- the mirror's loop ends right after the statements it absorbed
    have ends := absorbs 1 _ (loopEndsEnded (ready₁.ended ended)) n (by omega)
    simpa [Except.map] using ends

end Mirror

end Parse

end Maketree
