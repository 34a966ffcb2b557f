import Maketree.Text.Blank
/-! Logical lines of a file as a function of its physical lines: blank lines skipped, and a line
ending in a backslash joined with the lines that continue it. -/
namespace Maketree.LogicalLine

open Text

def isComment (line : String) : Bool := (dropBlanks line.toList).head? == some '#'

def continues (line : String) : Bool := !isComment line && line.toList.getLast? == some '\\'

def dropLast (line : String) : String := String.ofList line.toList.dropLast

/-- The text that the lines after a continued line add to it, and how many lines they are: pieces up
to a blank line (which is taken too) or the end, comments dropped, a continued piece joined with its
own continuation, each piece trimmed. -/
def continuation : List String → String × Nat
  | [] => ("", 0)
  | l :: rest =>
    if isBlankText l then ("", 1)
    else if isComment l then
      let (text, k) := continuation rest
      (text, k + 1)
    else if continues l then
      let (text, k) := continuation rest
      (trim (dropLast l ++ text), k + 1)
    else (trim l, 1)

theorem continuation_le (lines : List String) : (continuation lines).2 ≤ lines.length := by
  induction lines with
  | nil => simp [continuation]
  | cons l rest ih =>
    simp only [continuation]
    split
    · simp
    · split
      · simpa using ih
      · split
        · simpa using ih
        · simp

def expandFrom (n skip : Nat) : List String → List (String × Nat)
  | [] => []
  | l :: rest =>
    match skip with
    | s + 1 => expandFrom (n + 1) s rest
    | 0 =>
      if isBlankText l then expandFrom (n + 1) 0 rest
      else if continues l then
        let (text, k) := continuation rest
        (dropLast l ++ text, n + 1) :: expandFrom (n + 1) k rest
      else (l, n + 1) :: expandFrom (n + 1) 0 rest

def expand (n : Nat) (lines : List String) : List (String × Nat) := expandFrom n 0 lines

example : expand 0 ["A \\", "  # c", "  b \\", "   c", "", "D", "  "] = [("A b c", 1), ("D", 6)] :=
  rfl

end Maketree.LogicalLine
