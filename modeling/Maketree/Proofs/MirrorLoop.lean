import Mathlib
import Maketree.Proofs.DroppedLines
import Maketree.Proofs.TwinReaders
import Maketree.Proofs.Outcomes
/-! The loop of statements taken piece by piece, and the budget of lines the mirror has to read. -/
namespace Maketree

open Journal Expansion
open LineStream (Tracks Faulty ReadAhead upcoming upcomingOf)

namespace Parse

def LoopEnds (r : Reader) (k : Nat) (res : Except Halt (List Statement × Reader)) : Prop :=
  ∀ n, k ≤ n → Gives ((statements n).run r) res

/-- The loop of statements from `r` reads `ss` for `cost` more units of fuel, and goes on as from
`r₁`. -/
def Absorbs (r : Reader) (ss : List Statement) (cost : Nat) (r₁ : Reader) : Prop :=
  ∀ k res, LoopEnds r₁ k res → LoopEnds r (k + cost) (res.map fun x => (ss ++ x.1, x.2))

theorem loopEndsEnded {r : Reader} (ended : r.stream.eof = true) : LoopEnds r 1 (.ok ([], r)) := by
  intro n big
  obtain ⟨m, rfl⟩ : ∃ m, n = m + 1 := ⟨n - 1, by omega⟩
  rw [statements, atEndRun, ended]
  exact givesPure _

namespace Absorbs

variable {r r₁ r₂ : Reader} {ss ss₂ : List Statement} {c c₂ : Nat}

theorem refl (r : Reader) : Absorbs r [] 0 r := by
  intro k res ends
  rcases res with h | ⟨ss, r₁⟩ <;> simpa [Except.map] using ends

theorem trans (first : Absorbs r ss c r₁) (second : Absorbs r₁ ss₂ c₂ r₂) :
    Absorbs r (ss ++ ss₂) (c + c₂) r₂ := by
  intro k res ends
  have both := first _ _ (second k res ends)
  rw [show k + c₂ + c = k + (c + c₂) by omega] at both
  rcases res with h | ⟨ss₃, r₃⟩ <;> simpa [Except.map] using both

theorem line {L : String} {s : Option Statement} {j : Nat} (more : r.stream.eof = false)
    (reads : Gives ((readLine none).run r) (.ok (L, r₁)))
    (stmt : ∀ n, j ≤ n → Gives ((statement n L).run r₁) (.ok (s, r₂))) : Absorbs r s.toList (j + 1) r₂ := by
  intro k res ends n big
  obtain ⟨m, rfl⟩ : ∃ m, n = m + 1 := ⟨n - 1, by omega⟩
  rw [statements, atEndRun, more]
  simp only [Bool.false_eq_true, if_false]
  rw [StateT.run_bind]
  refine givesBind reads ?_
  rw [StateT.run_bind]
  refine givesBind (stmt m (by omega)) ?_
  exact givesThen (ends m (by omega))

end Absorbs

theorem flatMapFromFirstLine (files : List (String × List String)) :
    (fromFirstLine files).flatMap Prod.snd = files.flatMap Prod.snd := by
  induction files with
  | nil => rfl
  | cons file rest ih =>
    by_cases empty : file.2.isEmpty = true
    · rw [fromFirstLine, List.dropWhile_cons_of_pos (p := fun file : String × List String => file.2.isEmpty) empty,
        ← fromFirstLine, ih, List.flatMap_cons, List.isEmpty_iff.mp empty, List.nil_append]
    · rw [fromFirstLine, List.dropWhile_cons_of_neg (p := fun file : String × List String => file.2.isEmpty) empty]

namespace Mirror

variable (M : Mirror)

def linesOn (p : String) : Nat :=
  match M.files'.read p with
  | .ok bytes => (LogicalLine.expand 0 (Source.ofBytes bytes).lines).length
  | .error _ => 0

def budget (r' : Reader) (before : List String) : Nat :=
  r'.stream.upcoming.length + ((M.opened.drop before.length).map M.linesOn).sum

variable {M}

theorem Aligned.upcomingStands {past : Trace} {before : List String} {r r' : Reader} {pending pending' : Pending}
    (aligned : M.Aligned past before r r' pending pending') :
    r'.stream.upcoming.map Prod.fst = r.stream.upcoming.flatMap fun y => M.T.standIn y.1 y.2 := by
  rw [upcomingOf aligned.tracks, upcomingOf aligned.tracks']
  have same := congrArg (List.flatMap Prod.snd) aligned.same
  rw [flatMapFromFirstLine, flatMapFromFirstLine] at same
  simp only [texts, Trace.edited, Trace.standFor, lines, List.flatMap_map, List.map_flatMap,
    List.flatMap_assoc] at same ⊢
  simpa [Function.comp_def] using same

theorem standInsPlain (tabs : TabSafe M.T) (plain : ∀ m ∈ M.T, m.Plain) :
    ∀ (ahead : List (String × Location)) (pre later : Trace), M.T = pre ++ later → Continues later ahead →
      (ahead.map Prod.snd).Nodup → (∀ y ∈ ahead, ∀ m ∈ pre, m.loc ≠ some y.2) →
      (∀ y ∈ ahead.head?, startsWithTab y.1 = false) →
      ∀ t ∈ (ahead.flatMap fun y => M.T.standIn y.1 y.2).head?, startsWithTab t = false := by
  intro ahead
  induction ahead with
  | nil => simp
  | cons y ys ih =>
    intro pre later split cont nodup unmet first
    obtain _ | ⟨m, later'⟩ := later
    · simp [Continues] at cont
    obtain ⟨text, at_, moved⟩ := cont
    have found : M.T.find? (·.loc == some y.2) = some m := by
      rw [split, List.find?_append, List.find?_eq_none.mpr, Option.none_or, List.find?_cons_of_pos]
      · simp [at_]
      · intro m' met
        simpa using unmet y List.mem_cons_self m' met
    have met : m ∈ M.T := by
      rw [split]
      simp
    have headPlain : startsWithTab y.1 = false := first y rfl
    rw [List.flatMap_cons, standInFound found]
    rcases use : m.use with _ | _ | s
    · simpa [Use.standIn] using headPlain
    · -- a line consumed with nothing in its place: the next line met starts with no tab
      have notWaited : m.waited = false := (plain m met).1 use
      simp only [Use.standIn, List.nil_append]
      refine ih (pre ++ [m]) later' (by simp [split]) (moved notWaited) (List.nodup_cons.mp nodup).2 ?_ ?_
      · intro z mem m' met'
        rcases List.mem_append.mp met' with met' | met'
        · exact unmet z (List.mem_cons_of_mem _ mem) m' met'
        · rw [List.mem_singleton.mp met', at_]
          intro same
          exact (List.nodup_cons.mp nodup).1 (List.mem_map.mpr ⟨z, mem, (Option.some.inj same).symm⟩)
      · intro z head
        obtain ⟨z', zs, rfl⟩ := List.exists_cons_of_ne_nil (List.ne_nil_of_mem (List.mem_of_mem_head? head))
        simp only [List.head?_cons, Option.mem_def, Option.some.injEq] at head
        subst head
        obtain _ | ⟨m', later''⟩ := later'
        · have none := moved notWaited
          simp [Continues] at none
        have step := (List.isChain_cons_cons.mp ((split ▸ tabs : TabSafe (pre ++ m :: m' :: later'')).right_of_append)).1
        have text' : m'.text = z'.1 := (moved notWaited).1
        simp only [use, reduceCtorEq, false_or] at step
        simpa [startsWithTab, text'] using step
    · have stand := (plain m met).2 s use
      simpa [Use.standIn, startsWithTab] using stand

end Mirror

end Parse

end Maketree
