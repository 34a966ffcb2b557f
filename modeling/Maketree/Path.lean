/-! POSIX paths as text: normal forms, joins, directory names and paths relative to a directory. -/
namespace Maketree.Path

def leadingSlashes (cs : List Char) : Nat :=
  match cs with
  | '/' :: '/' :: '/' :: _ => 1
  | '/' :: '/' :: _ => 2
  | '/' :: _ => 1
  | _ => 0

def pushComponent (rooted : Bool) (stack : List (List Char)) (comp : List Char) : List (List Char) :=
  if comp = [] ∨ comp = ['.'] then stack
  else if comp ≠ ['.', '.'] then comp :: stack
  else match stack with
    | [] => if rooted then [] else [comp]
    | top :: rest => if top = ['.', '.'] then comp :: stack else rest

def components (cs : List Char) : List (List Char) :=
  ((cs.splitOn '/').foldl (pushComponent (leadingSlashes cs != 0)) []).reverse

def normalizeChars (cs : List Char) : List Char :=
  let body := List.replicate (leadingSlashes cs) '/' ++ ['/'].intercalate (components cs)
  if body = [] then ['.'] else body

def normalize (p : String) : String := String.ofList (normalizeChars p.toList)

def isAbsolute (p : String) : Bool := p.toList.head? == some '/'

def join (a b : String) : String :=
  if isAbsolute b then b
  else if a.isEmpty || a.toList.getLast? == some '/' then a ++ b
  else a ++ "/" ++ b

def normalJoin (a b : String) : String := normalize (join a b)

def dirName (p : String) : String :=
  let head := (p.toList.reverse.dropWhile (· != '/')).reverse
  if head.all (· == '/') then String.ofList head
  else String.ofList (head.reverse.dropWhile (· == '/')).reverse

def absolute (cwd p : String) : String :=
  if isAbsolute p then normalize p else normalize (join cwd p)

def relativeTo (p root : String) : Option String :=
  let p := (normalize p).toList
  let r := (normalize root).toList
  if p = r then some "."
  else
    let pre := if r.getLast? == some '/' then r else r ++ ['/']
    if pre.isPrefixOf p then some (String.ofList (p.drop pre.length)) else none

example : normalJoin "a" "../../b" = "../b" := by decide
example : normalJoin "//a" "b" = "//a/b" ∧ normalJoin "/a" "//b" = "//b" := by decide
example : normalJoin "/a/b" "../../../.." = "/" ∧ normalJoin "" "" = "." := by decide
example : relativeTo "//a/b" "/a" = none ∧ relativeTo "a/./b" "a/b/.." = some "b" := by decide
example : dirName "/tmp/x/Makefile" = "/tmp/x" ∧ dirName "Makefile" = "" ∧ dirName "//a" = "//" := by
  decide

end Maketree.Path
