/-! Character classes given by tables of code point ranges. -/
namespace Maketree.Text

abbrev CodeRanges := List (Nat × Nat)

def CodeRanges.contains (rs : CodeRanges) (c : Char) : Bool :=
  rs.any fun r => r.1 ≤ c.toNat && c.toNat ≤ r.2

theorem CodeRanges.contains_iff (rs : CodeRanges) (c : Char) :
    rs.contains c = true ↔ ∃ r ∈ rs, r.1 ≤ c.toNat ∧ c.toNat ≤ r.2 := by
  simp [CodeRanges.contains]

end Maketree.Text
