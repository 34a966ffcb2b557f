import Maketree.Parse.Statement
/-! Makefiles as read: the root path, the variables at the end, and the statements in order.
`parseFile` and `parseText` read with fuel enough for any input that includes no file still open. -/
namespace Maketree

structure Makefile where
  path : String
  context : Context
  statements : List Statement


namespace Makefile

def dump (m : Makefile) : String :=
  "AST:\n" ++ m.context.dump "\t" ++ "\tNodes:\n" ++ Statement.dumpAll "\t\t" m.statements

/-- Fuel for reading what `stream` has to give: every logical line read takes at most four units,
and every file's stack of includes reads at most `(size + 1) ^ (files + 2)` lines, `size` being the
lines that the stream holds and the bytes of its files together. -/
def fuelFor (stream : LineStream) : Nat :=
  let size := stream.files.files.foldl (fun n f => n + f.2.length) (stream.pendingLines + 2)
  4 * Nat.pow (size + 1) (stream.files.files.length + 2) + 4

def ofStream (stream : LineStream) (path : String) : Journal Makefile := do
  let ctx := Context.empty (Path.dirName (Path.absolute stream.files.cwd path))
  let (statements, r) ← (Parse.statements (fuelFor stream)).run { stream := stream, context := ctx }
  pure { path := path, context := r.context, statements := statements }

def parseFile (files : FileSystem) (path : String) (workDir : Option String) : Journal Makefile := do
  let path := Path.absolute files.cwd path
  let stream ← LineStream.openFile files path workDir
  ofStream stream path

def parseText (files : FileSystem) (text path : String) (workDir : Option String) :
    Journal Makefile := do
  let stream ← LineStream.ofText files text path workDir
  ofStream stream path

end Makefile

end Maketree
