import Maketree.Text.Ranges
/-! Blank characters, the Unicode white space, and the trimming and word splitting built on them. -/
namespace Maketree.Text

def blankRanges : CodeRanges :=
  [(0x09, 0x0D), (0x1C, 0x20), (0x85, 0x85), (0xA0, 0xA0), (0x1680, 0x1680), (0x2000, 0x200A),
   (0x2028, 0x2029), (0x202F, 0x202F), (0x205F, 0x205F), (0x3000, 0x3000)]

def isBlank (c : Char) : Bool := blankRanges.contains c

def dropBlanks (cs : List Char) : List Char := cs.dropWhile isBlank

def dropTrailingBlanks (cs : List Char) : List Char := (dropBlanks cs.reverse).reverse

def trimChars (cs : List Char) : List Char := dropTrailingBlanks (dropBlanks cs)

def trim (s : String) : String := String.ofList (trimChars s.toList)

def trimLeft (s : String) : String := String.ofList (dropBlanks s.toList)

def trimRight (s : String) : String := String.ofList (dropTrailingBlanks s.toList)

def isBlankText (s : String) : Bool := s.toList.all isBlank

theorem isBlankText_iff (s : String) : isBlankText s = true ↔ ∀ c ∈ s.toList, isBlank c = true := by
  simp [isBlankText]

def wordsFrom (acc : List Char) : List Char → List (List Char)
  | [] => if acc.isEmpty then [] else [acc.reverse]
  | c :: cs =>
    if isBlank c then
      if acc.isEmpty then wordsFrom [] cs else acc.reverse :: wordsFrom [] cs
    else wordsFrom (c :: acc) cs

def words (s : String) : List String := (wordsFrom [] s.toList).map String.ofList

def firstWordAndRest (s : String) : List String :=
  let cs := dropBlanks s.toList
  let word := cs.takeWhile (fun c => !isBlank c)
  let rest := dropBlanks (cs.dropWhile (fun c => !isBlank c))
  if cs.isEmpty then [] else if rest.isEmpty then [String.ofList word]
  else [String.ofList word, String.ofList rest]

def splitAtFirst (sep : Char) (s : String) : String × Option String :=
  let cs := s.toList
  match cs.idxOf? sep with
  | some i => (String.ofList (cs.take i), some (String.ofList (cs.drop (i + 1))))
  | none => (s, none)

def splitAtAnd : List Char → List (List Char)
  | '&' :: '&' :: rest => [] :: splitAtAnd rest
  | c :: rest =>
    match splitAtAnd rest with
    | [] => [[c]]
    | w :: ws => (c :: w) :: ws
  | [] => [[]]

example : words " a　b\x0b\x1c c " = ["a", "b", "c"] := by decide
example : firstWordAndRest "  export  A = 1" = ["export", "A = 1"] := by decide
example : splitAtAnd "a&&&b&&".toList = ["a".toList, "&b".toList, []] := by decide

end Maketree.Text
