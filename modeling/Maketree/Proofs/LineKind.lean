import Mathlib
import Maketree.Parse.Reader
/-! How the kinds of a line exclude each other. -/
namespace Maketree

open Text

namespace Text

theorem dropBlanksLead {cs : List Char} (lead : ∀ c ∈ cs.head?, isBlank c = false) :
    dropBlanks cs = cs := by
  cases cs with
  | nil => rfl
  | cons c rest => exact List.dropWhile_cons_of_neg (by simpa using lead c rfl)

theorem dropTrailingPrefix (cs : List Char) : dropTrailingBlanks cs <+: cs :=
  List.rdropWhile_prefix isBlank cs

theorem trimCharsLead (cs : List Char) : ∀ c ∈ (trimChars cs).head?, isBlank c = false := by
  intro c mem
  unfold trimChars at mem
  obtain ⟨tail, whole⟩ := dropTrailingPrefix (dropBlanks cs)
  have first : (dropBlanks cs).head? = some c := by
    rw [← whole, List.head?_append, Option.mem_def.mp mem]
    rfl
  have solid := List.head?_dropWhile_not isBlank cs
  rw [show List.dropWhile isBlank cs = dropBlanks cs from rfl, first] at solid
  exact solid

theorem trimCharsIdem (cs : List Char) : trimChars (trimChars cs) = trimChars cs := by
  have lead := trimCharsLead cs
  unfold trimChars at lead ⊢
  rw [dropBlanksLead lead]
  exact List.rdropWhile_idempotent isBlank (dropBlanks cs)

theorem trimCharsCons {c : Char} (t : List Char) (solid : isBlank c = false) :
    ∃ t', trimChars (c :: t) = c :: t' := by
  unfold trimChars
  rw [dropBlanksLead (by simpa using solid)]
  obtain ⟨tail, whole⟩ := dropTrailingPrefix (c :: t)
  cases kept : dropTrailingBlanks (c :: t) with
  | nil =>
    have gone := List.rdropWhile_eq_nil_iff.mp kept
    simp [solid] at gone
  | cons d t' =>
    rw [kept, List.cons_append, List.cons.injEq] at whole
    exact ⟨t', by rw [whole.1]⟩

@[simp] theorem trimTrim (s : String) : trim (trim s) = trim s := by
  simp [trim, trimCharsIdem]

theorem trimNoTab (s : String) : (trim s).toList.head? ≠ some '\t' := by
  intro tab
  have lead := trimCharsLead s.toList '\t' (by simpa [trim] using tab)
  exact absurd lead (by decide)

end Text

theorem blankNotName {c : Char} (blank : isBlank c = true) : isNameChar c = false := by
  -- the blanks are a few code points, none of them a name character
  have named : ∀ r ∈ blankRanges, ∀ k < r.2 - r.1 + 1, isNameChar (Char.ofNat (r.1 + k)) = false := by
    set_option maxRecDepth 4096 in decide
  obtain ⟨r, mem, low, high⟩ := (CodeRanges.contains_iff _ _).mp blank
  have at_c := named r mem (c.toNat - r.1) (by omega)
  rwa [Nat.add_sub_cancel' low, Char.ofNat_toNat] at at_c

theorem includeShape {l : String} (h : isInclude l = true) :
    ∃ rest, trimChars l.toList = 'i' :: 'n' :: 'c' :: 'l' :: 'u' :: 'd' :: 'e' :: rest ∧
      (rest = [] ∨ ∃ c after, rest = c :: after ∧ isBlank c = true ∧ startsAssignment after = false) := by
  unfold isInclude at h
  generalize trimChars l.toList = cs at h
  unfold isIncludeChars at h
  split at h
  · rename_i rest
    refine ⟨rest, rfl, ?_⟩
    split at h
    · exact .inl rfl
    · rename_i c after
      simp only [Bool.and_eq_true, Bool.not_eq_true'] at h
      exact .inr ⟨c, after, rfl, h⟩
  · simp at h

@[simp] theorem includeTrim (l : String) : isInclude (trim l) = isInclude l := by
  simp [isInclude, trim, trimCharsIdem]

theorem includeNotComment {l : String} (h : isInclude l = true) :
    Parse.startsWithHash (trim l) = false := by
  obtain ⟨rest, shape, -⟩ := includeShape h
  simp [Parse.startsWithHash, trim, shape]

theorem includeNoDirective {l : String} (h : isInclude l = true) : directive? (trim l) = none := by
  obtain ⟨rest, shape, -⟩ := includeShape h
  simp [directive?, trim, shape, Directive.all, Directive.leads, Directive.keyword, List.find?,
    List.isPrefixOf]

theorem assignOpStarts {cs : List Char} (op : startsWithAssignOp cs = true) :
    (cs.dropWhile fun c => c == ':' || c == '+' || c == '?').head? = some '=' := by
  unfold startsWithAssignOp at op
  split at op
  · rfl
  · rfl
  · rfl
  · rfl
  · rfl
  · simp at op

theorem includeNotAssignment {l : String} (h : isInclude l = true) :
    isAssignment (trim l) = false := by
  obtain ⟨rest, shape, tail⟩ := includeShape h
  have word : ∀ c ∈ ['i', 'n', 'c', 'l', 'u', 'd', 'e'], isNameChar c = true := by
    intro c mem
    simp only [List.mem_cons, List.not_mem_nil, or_false] at mem
    rcases mem with rfl | rfl | rfl | rfl | rfl | rfl | rfl <;> rfl
  have afterWord : (trimChars l.toList).dropWhile isNameChar = rest.dropWhile isNameChar := by
    rw [shape]
    exact List.dropWhile_append_of_pos word
  simp only [isAssignment, trim, String.toList_ofList, afterWord, Bool.and_eq_false_iff]
  right
  rcases tail with rfl | ⟨c, after, rfl, blank, free⟩
  · rfl
  -- the blank after the word ends the name, and what follows it starts no operator
  rw [List.dropWhile_cons_of_neg (by simp [blankNotName blank]), dropBlanks,
    List.dropWhile_cons_of_pos blank]
  cases op : startsWithAssignOp ((after.dropWhile isBlank)) with
  | false => rfl
  | true =>
    have starts := assignOpStarts op
    simp only [startsAssignment, dropBlanks] at free
    split at free
    · simp at free
    · rename_i other
      revert starts other
      cases (List.dropWhile isBlank after).dropWhile (fun c => c == ':' || c == '+' || c == '?') with
      | nil => simp
      | cons d ds => simp

theorem commentNotInclude {l : String} (h : Parse.startsWithHash l = true) : isInclude l = false := by
  simp only [Parse.startsWithHash, beq_iff_eq, List.head?_eq_some_iff] at h
  obtain ⟨t, whole⟩ := h
  obtain ⟨t', trimmed⟩ := trimCharsCons t (c := '#') (by decide)
  simp [isInclude, whole, trimmed, isIncludeChars]

theorem directiveNotInclude {l : String} {d : Directive} (h : directive? (trim l) = some d) :
    isInclude l = false := by
  cases included : isInclude l with
  | false => rfl
  | true => simp [includeNoDirective included] at h

theorem argumentTrimmed (d : Directive) (line : String) : trim (d.argument line) = d.argument line := by
  simp [Directive.argument, trim, trimCharsIdem]

end Maketree
