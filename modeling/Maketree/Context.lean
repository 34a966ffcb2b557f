import Maketree.Text.Blank
/-! The variables of a makefile, as written and never expanded, with the flavor of each name. A
trailing `?` on the left side marks the name conditional, then trailing colons mark it simply
expanded, then a trailing `+` appends the value to the old one after a space. -/
namespace Maketree

open Text

inductive Flavor where
  | recursive
  | simple
  | conditional
  deriving DecidableEq, Repr

def Flavor.name : Flavor → String
  | .recursive => "RECURSIVE"
  | .simple => "SIMPLE"
  | .conditional => "CONDITIONAL"

def Flavor.marker : Flavor → String
  | .recursive => " "
  | .simple => ":"
  | .conditional => "?"

def insertName (n : String) : List String → List String
  | [] => [n]
  | m :: ms => if n = m then m :: ms else if n < m then n :: m :: ms else m :: insertName n ms

def putValue (n v : String) : List (String × String) → List (String × String)
  | [] => [(n, v)]
  | (m, w) :: rest =>
    if n = m then (n, v) :: rest
    else if n < m then (n, v) :: (m, w) :: rest
    else (m, w) :: putValue n v rest

structure Context where
  rootDir : String
  values : List (String × String)
  modifiable : List String
  simpleExpanded : List String
  deriving DecidableEq, Repr

namespace Context

def empty (rootDir : String) : Context :=
  { rootDir := rootDir, values := [], modifiable := [], simpleExpanded := [] }

def get? (ctx : Context) (name : String) : Option String := ctx.values.lookup name

def contains (ctx : Context) (name : String) : Bool := (ctx.get? name).isSome

def size (ctx : Context) : Nat := ctx.values.length

def flavor (ctx : Context) (name : String) : Flavor :=
  if ctx.modifiable.contains name then .conditional
  else if ctx.simpleExpanded.contains name then .simple
  else .recursive

def dropTrailing (c : Char) (s : String) : String :=
  String.ofList (s.toList.reverse.dropWhile (· == c)).reverse

def endsWith (c : Char) (s : String) : Bool := s.toList.getLast? == some c

def markConditional (p : String × Context) : String × Context :=
  if endsWith '?' p.1 then
    (trimRight (String.ofList p.1.toList.dropLast),
      { p.2 with modifiable := insertName (trimRight (String.ofList p.1.toList.dropLast)) p.2.modifiable })
  else p

def markSimple (p : String × Context) : String × Context :=
  if endsWith ':' p.1 then
    (trimRight (dropTrailing ':' p.1),
      { p.2 with simpleExpanded := insertName (trimRight (dropTrailing ':' p.1)) p.2.simpleExpanded })
  else p

def readAppend (ctx : Context) (name value : String) : String × String :=
  if endsWith '+' name then
    (trimRight (String.ofList name.toList.dropLast),
      match ctx.get? (trimRight (String.ofList name.toList.dropLast)) with
      | some old => old ++ " " ++ value
      | none => value)
  else (name, value)

/-- Assigns `value` to the name that `raw` holds once its operator is read off, by the rules of the
module comment; returns that name. -/
def set (ctx : Context) (raw value : String) : String × Context :=
  let p := markSimple (markConditional (trim raw, ctx))
  let q := readAppend p.2 p.1 value
  (q.1, { p.2 with values := putValue q.1 q.2 p.2.values })

def unset (ctx : Context) (name : String) : Context :=
  { ctx with values := ctx.values.filter (·.1 != name) }

def entries (ctx : Context) : List (String × Flavor × String) :=
  ctx.values.map fun (n, v) => (n, ctx.flavor n, v)

def dump (ctx : Context) (indent : String) : String :=
  indent ++ "Context:\n" ++ String.join (ctx.entries.map fun (n, f, v) =>
    indent ++ "\t" ++ n ++ "\t" ++ f.marker ++ ": " ++ v ++ "\n")

def render (ctx : Context) : String :=
  "Context(" ++ ", ".intercalate (ctx.entries.map fun (n, f, v) => n ++ "<" ++ f.name ++ ">=" ++ v) ++
    ")"

end Context

end Maketree
