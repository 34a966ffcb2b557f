import Mathlib
import Maketree.Source
import Maketree.LogicalLine
/-! How many lines a makefile has: at most one logical line more than bytes or characters. -/
namespace Maketree

namespace Text.Utf8

theorem mapConsOk {x : Char} {r : Except Failure (List Char × List UInt8)} {cs : List Char}
    {held : List UInt8} (ok : (r.map fun (cs, held) => (x :: cs, held)) = .ok (cs, held)) :
    ∃ cs', r = .ok (cs', held) ∧ cs = x :: cs' := by
  rcases r with f | ⟨cs', held'⟩
  · simp [Except.map] at ok
  · simp only [Except.map, Except.ok.injEq, Prod.mk.injEq] at ok
    exact ⟨cs', by rw [ok.2], ok.1.symm⟩

theorem scanLength (pos : Nat) (bs : List UInt8) {cs : List Char} {held : List UInt8}
    (ok : scan pos bs = .ok (cs, held)) : cs.length + held.length ≤ bs.length := by
  fun_induction scan pos bs generalizing cs held
  all_goals simp +zetaDelta only [reduceCtorEq, Except.ok.injEq, Prod.mk.injEq] at ok
  all_goals first
    | (obtain ⟨rfl, rfl⟩ := ok; simp)
    | (rename_i ih
       obtain ⟨cs', scanned, rfl⟩ := mapConsOk ok
       have := ih scanned
       simp only [List.length_cons]
       omega)

theorem decodePiecesLength (held : List UInt8) (pieces : List (List UInt8)) :
    (decodePieces held pieces).1.length ≤ held.length + (pieces.map List.length).sum := by
  induction pieces generalizing held with
  | nil => simp [decodePieces]
  | cons piece rest ih =>
    rw [decodePieces]
    split
    · simp
    · rename_i cs next scanned
      have scannedLength := scanLength 0 _ scanned
      have restLength := ih next
      simp only [List.length_append, List.map_cons, List.sum_cons] at scannedLength restLength ⊢
      omega

end Text.Utf8

namespace Source

theorem blocksJoin (size : Nat) (bytes : List UInt8) : (blocks size bytes).flatten = bytes := by
  fun_induction blocks size bytes with
  | case1 => rfl
  | case2 b rest _ ih => rw [List.flatten_cons, ih, List.take_append_drop]
  | case3 => simp

theorem splitLinesFromLength (cur cs : List Char) : (splitLinesFrom cur cs).1.length ≤ cs.length := by
  fun_induction splitLinesFrom cur cs <;> simp_all <;> omega

theorem lastPieceLength {α : Type} (c : Bool) (x : α) : (if c = true then [] else [x]).length ≤ 1 := by
  cases c <;> simp

theorem allLinesLength (cs : List Char) : (allLines cs).length ≤ cs.length + 1 := by
  have closed : (splitLines cs).1.length ≤ cs.length := splitLinesFromLength [] cs
  have last := lastPieceLength (splitLines cs).2.isEmpty (splitLines cs).2
  simp only [allLines, List.length_map, List.length_append]
  omega

theorem ofBytesLength (bytes : List UInt8) : (ofBytes bytes).lines.length ≤ bytes.length + 1 := by
  have decoded := Text.Utf8.decodePiecesLength [] (blocks blockSize bytes)
  rw [List.length_nil, Nat.zero_add, ← List.length_flatten, blocksJoin] at decoded
  unfold ofBytes
  generalize Text.Utf8.decodePieces [] (blocks blockSize bytes) = d at decoded ⊢
  obtain ⟨cs, last⟩ := d
  dsimp only at decoded ⊢
  split
  · exact (allLinesLength cs).trans (by omega)
  · -- a carriage return just before the fault is dropped
    have kept : (if cs.getLast? == some '\r' then cs.dropLast else cs).length ≤ cs.length := by
      split <;> simp
    have closed := splitLinesFromLength [] (if cs.getLast? == some '\r' then cs.dropLast else cs)
    simp only [splitLines, List.length_map]
    omega

theorem splitOnLength (c : Char) (cs : List Char) : (cs.splitOn c).length ≤ cs.length + 1 := by
  induction cs with
  | nil => exact Nat.le_refl _
  | cons d rest ih =>
    simp only [List.splitOn] at ih ⊢
    rw [List.splitOnP_cons_eq_if_modifyHead]
    split <;> simp [List.length_modifyHead] <;> omega

end Source

namespace LogicalLine

theorem expandFromLength (n skip : Nat) (lines : List String) :
    (expandFrom n skip lines).length ≤ lines.length := by
  induction lines generalizing n skip with
  | nil => simp [expandFrom]
  | cons l rest ih =>
    cases skip with
    | succ s => simpa [expandFrom] using (ih (n + 1) s).trans (Nat.le_succ _)
    | zero =>
      simp only [expandFrom]
      split
      · exact (ih _ _).trans (Nat.le_succ _)
      · split <;> simpa using ih _ _

theorem expandLength (n : Nat) (lines : List String) : (expand n lines).length ≤ lines.length :=
  expandFromLength n 0 lines

end LogicalLine

end Maketree
