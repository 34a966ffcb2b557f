import Maketree.Command
/-! The command line program: it fills the file system value from the disk with the paths a run
needs, running again until no run needs a path not yet looked at. -/
namespace Maketree.Main

def diskEntry (p : String) : IO (Option Entry) := do
  try
    let bytes ← IO.FS.readBinFile p
    return some (.file bytes.toList)
  catch e =>
    match e with
    | .inappropriateType .. => return some .directory
    | _ => return none

def look (fs : FileSystem) (seen : List String) (p : String) : IO (FileSystem × List String) := do
  let abs := Path.absolute fs.cwd p
  let mut fs := fs
  let mut seen := seen
  let mut below := true
  for q in FileSystem.ancestry abs do
    if below && seen.contains q then below := fs.isDir q
    else if below then
      seen := q :: seen
      match ← diskEntry q with
      | some .directory => fs := fs.addDirectory q
      | some (.file content) =>
        fs := fs.addFile q content
        below := false
      | none => below := false
  return (fs, seen)

def missed (out : Command.Outcome) : List String :=
  let opened := match out.error with
    | some ⟨.cannotOpen path _, _⟩ => [path]
    | _ => []
  opened ++ out.log.filterMap fun
    | .cdFailed _ dir => some dir
    | _ => none

partial def settle (fs : FileSystem) (seen : List String) (cwd : String) (args : List String) :
    IO Command.Outcome := do
  let out := Command.run fs cwd args
  let wanted := (missed out).filter fun p => !seen.contains (Path.absolute fs.cwd p)
  if wanted.isEmpty then return out
  let mut fs := fs
  let mut seen := seen
  for p in wanted do
    (fs, seen) ← look fs seen p
  settle fs seen cwd args

end Maketree.Main

open Maketree in
def main (args : List String) : IO UInt32 := do
  let cwd := (← IO.currentDir).toString
  let fs0 : FileSystem := { cwd := cwd, directories := [], files := [] }
  let (fs, seen) ← Main.look fs0 [] cwd
  let makefile := match Command.readArgs Command.Invocation.none args with
    | .ok inv => [(inv.makefilePath cwd).1]
    | .error _ => []
  let (fs, seen) ← makefile.foldlM (fun (fs, seen) p => Main.look fs seen p) (fs, seen)
  let out ← Main.settle fs seen cwd args
  let verbose := match Command.readArgs Command.Invocation.none args with
    | .ok inv => inv.verbose
    | .error _ => false
  let stderr ← IO.getStderr
  for n in out.log do
    if verbose || n.level == .warning then
      stderr.putStrLn (n.level.name ++ ":" ++ n.channel.loggerName ++ ":" ++ n.message)
  IO.print out.stdout
  match out.exit with
  | .ok code => return code.toUInt32
  | .error h =>
    stderr.putStrLn h.message
    return 1
