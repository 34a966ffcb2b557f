/-! Lowercase hexadecimal digits. -/
namespace Maketree.Text

def hexDigit (n : Nat) : Char :=
  if n < 10 then Char.ofNat (0x30 + n) else Char.ofNat (0x57 + n)

def hexDigits : Nat → Nat → List Char
  | 0, _ => []
  | width + 1, n => hexDigits width (n / 16) ++ [hexDigit (n % 16)]

theorem length_hexDigits (width n : Nat) : (hexDigits width n).length = width := by
  induction width generalizing n with
  | zero => rfl
  | succ w ih => simp [hexDigits, ih]

example : hexDigits 2 0xED = ['e', 'd'] ∧ hexDigits 4 0x200B = ['2', '0', '0', 'b'] := by decide

end Maketree.Text
