import Maketree.Text.Printable
import Maketree.Text.Hex
/-! Quoted literals, in which every character can be told apart, and lists of them. -/
namespace Maketree.Text

def quoteFor (cs : List Char) : Char :=
  if cs.contains '\x27' && !cs.contains '\x22' then '\x22' else '\x27'

def escapeChar (q c : Char) : List Char :=
  if c == q || c == '\\' then ['\\', c]
  else if c == '\t' then ['\\', 't']
  else if c == '\n' then ['\\', 'n']
  else if c == '\r' then ['\\', 'r']
  else if c.toNat < 0x20 || c.toNat == 0x7F then '\\' :: 'x' :: hexDigits 2 c.toNat
  else if c.toNat < 0x7F || isPrintable c then [c]
  else if c.toNat < 0x100 then '\\' :: 'x' :: hexDigits 2 c.toNat
  else if c.toNat < 0x10000 then '\\' :: 'u' :: hexDigits 4 c.toNat
  else '\\' :: 'U' :: hexDigits 8 c.toNat

def quote (s : String) : String :=
  let q := quoteFor s.toList
  String.ofList (q :: s.toList.flatMap (escapeChar q) ++ [q])

def quoteList (xs : List String) : String :=
  "[" ++ ", ".intercalate (xs.map quote) ++ "]"

example : quote "cargo build" = "\x27cargo build\x27" := by decide
example : quote "it\x27s" = "\x22it\x27s\x22" := by decide
set_option maxRecDepth 4096 in
example : quote "a\tb\x00é\u00a0\u200b" = "\x27a\\tb\\x00é\\xa0\\u200b\x27" := by decide
example : quoteList ["b.mk", "c"] = "[\x27b.mk\x27, \x27c\x27]" := by decide

end Maketree.Text
