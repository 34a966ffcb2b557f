import Maketree.Text.Utf8
/-! Sources: the physical lines of a makefile, without their line ends. A file is decoded as UTF-8
in blocks of 8192 bytes and split at every line end, a text at line feeds only; a decoding fault
comes on the read after the lines before it. -/
namespace Maketree

structure Source where
  lines : List String
  failure : Option Text.Utf8.Failure
  deriving DecidableEq, Repr

namespace Source

def splitLinesFrom (cur : List Char) : List Char → List (List Char) × List Char
  | [] => ([], cur.reverse)
  | '\r' :: '\n' :: rest => let (ls, tail) := splitLinesFrom [] rest; (cur.reverse :: ls, tail)
  | '\r' :: rest => let (ls, tail) := splitLinesFrom [] rest; (cur.reverse :: ls, tail)
  | '\n' :: rest => let (ls, tail) := splitLinesFrom [] rest; (cur.reverse :: ls, tail)
  | c :: rest => splitLinesFrom (c :: cur) rest

def splitLines (cs : List Char) : List (List Char) × List Char := splitLinesFrom [] cs

def allLines (cs : List Char) : List String :=
  let (ls, tail) := splitLines cs
  (ls ++ if tail.isEmpty then [] else [tail]).map String.ofList

def blockSize : Nat := 8192

def blocks (size : Nat) (bytes : List UInt8) : List (List UInt8) :=
  match bytes with
  | [] => []
  | b :: rest =>
    if 0 < size ∧ size < rest.length + 1 then
      (b :: rest).take size :: blocks size ((b :: rest).drop size)
    else [b :: rest]
termination_by bytes.length
decreasing_by simp only [List.length_drop, List.length_cons]; omega

def ofBytes (bytes : List UInt8) : Source :=
  let (cs, last) := Text.Utf8.decodePieces [] (blocks blockSize bytes)
  let fault := match last with
    | .error failure => some failure
    | .ok held => Text.Utf8.finish held
  match fault with
  | none => { lines := allLines cs, failure := none }
  | some failure =>
    let cs := if cs.getLast? == some '\r' then cs.dropLast else cs
    { lines := (splitLines cs).1.map String.ofList, failure := some failure }

def splitAtLineFeeds (cs : List Char) : List (List Char) := cs.splitOn '\n'

def dropLineEnds (cs : List Char) : List Char :=
  (cs.reverse.dropWhile (fun c => c == '\r' || c == '\n')).reverse

def ofText (s : String) : Source :=
  let pieces := splitAtLineFeeds s.toList
  let closed := pieces.dropLast
  let last := pieces.getLast?.getD []
  { lines := (closed ++ if last.isEmpty then [] else [last]).map (String.ofList ∘ dropLineEnds),
    failure := none }

example : (ofBytes [0x41, 0x0D, 0x0A, 0x42, 0x0D, 0x43]).lines = ["A", "B", "C"] := by cbv
example : (ofText "A\r\r\nB\rC\n\n").lines = ["A", "B\rC", ""] := by decide
example : (ofBytes [0x41, 0x0A, 0x42, 0x0D, 0xE2, 0x82]).lines = ["A"] := by cbv
example : blocks 3 [1, 2, 3, 4, 5, 6, 7] = [[1, 2, 3], [4, 5, 6], [7]] := by cbv

end Source

end Maketree
