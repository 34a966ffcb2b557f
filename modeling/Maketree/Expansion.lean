import Maketree.LogicalLine
import Maketree.Source
import Maketree.LineKind
import Maketree.Location
import Maketree.Path
import Maketree.FileSystem
/-! The expansion of a makefile with the files it includes: the logical lines a reader meets, each at
its location, read from a stack of open files, innermost first. -/
namespace Maketree.Expansion

abbrev Pending := List (String × List (String × Nat))

def next : Pending → Option ((String × Location) × Pending)
  | [] => none
  | (_, []) :: rest => next rest
  | (path, (text, n) :: more) :: rest => some ((text, ⟨path, n⟩), (path, more) :: rest)

def fileLines (files : FileSystem) (path : String) : Option (List (String × Nat)) :=
  match files.read path with
  | .ok bytes => some (LogicalLine.expand 0 (Source.ofBytes bytes).lines)
  | .error _ => none

def splice (files : FileSystem) (workDir : String) :
    List (Option Bool × String) → Pending → Option (List (String × Location) × Bool)
  | [], pending => some ([], (next pending).isNone)
  | (defer, path) :: client, pending =>
    match next pending with
    | none => some ([], true)
    | some ((text, loc), rest) => do
      let pending ←
        if defer.getD (isInclude text) then
          (fileLines files (Path.normalJoin workDir path)).map
            fun lines => (Path.normalJoin workDir path, lines) :: rest
        else some rest
      let (lines, done) ← splice files workDir client pending
      pure ((text, loc) :: lines, done)

end Maketree.Expansion
