import Maketree.Parse.Reader
/-! Recipe steps: comments, `export`/`unexport` lines, cargo commands placed relative to the root
directory along the recipe's `cd` steps, and other commands. -/
namespace Maketree.Parse

open Text

def manifestPath (loc : Option Location) : List String → ReadM (Option String)
  | [] => pure none
  | w :: rest =>
    if w = "--manifest-path" then
      match rest with
      | path :: _ => pure (some path)
      | [] => do
        note (.manifestPathMissing loc)
        pure none
    else if "--manifest-path=".toList.isPrefixOf w.toList then
      pure (some (String.ofList (w.toList.drop "--manifest-path=".length)))
    else manifestPath loc rest

def manifestDirectory (cwd manifestPath : String) (loc : Option Location) : ReadM (Option String) := do
  let manifest := Path.normalJoin cwd manifestPath
  let root := (← get).context.rootDir
  match Path.relativeTo manifest root with
  | none =>
    note (.manifestOutsideRoot loc manifest root)
    pure none
  | some rel =>
    let dir := Path.dirName rel
    pure (some (if dir.isEmpty then "." else dir))

def cargoStep (cwd line : String) (words : List String) (loc : Option Location) :
    ReadM Statement := do
  match words.head? >>= Subcommand.ofWord? with
  | none =>
    note (.unknownCargoSubcommand loc line)
    pure (.command line)
  | some sub =>
    match ← manifestPath loc ("cargo" :: words) with
    | none => pure (.cargo sub none line)
    | some path => pure (.cargo sub (← manifestDirectory cwd path loc) line)

def changeDirectory (cwd dir : String) (loc : Option Location) : ReadM String := do
  let target := Path.normalJoin cwd dir
  if (← get).stream.files.isDir target then
    note (.changedDirectory loc target)
    pure target
  else
    note (.cdFailed loc target)
    pure cwd

def step (cwd raw : String) (loc : Option Location) : ReadM (Statement × String) := do
  let line := trim raw
  if startsWithHash line then return (.comment (commentText line), cwd)
  match directive? line with
  | some .exportVar => return (← exportDirective .exportVar line loc, cwd)
  | some .unexportVar => return (← exportDirective .unexportVar line loc, cwd)
  | _ => pure ()
  match Text.words line with
  | "cargo" :: rest => return (← cargoStep cwd line rest loc, cwd)
  | "cd" :: dir :: _ => return (.command line, ← changeDirectory cwd dir loc)
  | ["cd"] =>
    note (.cdWithoutDirectory loc)
    return (.command line, cwd)
  | _ => return (.command line, cwd)

def recipeSteps : Nat → String → ReadM (List Statement)
  | 0, _ => throw .exhausted
  | fuel + 1, cwd => do
    if (← peek).toList.head? == some '\t' then
      let line ← readLine (some false)
      if isBlankText line then recipeSteps fuel cwd
      else
        let (s, cwd) ← step cwd line (← place)
        let rest ← recipeSteps fuel cwd
        pure (s :: rest)
    else pure []

end Maketree.Parse
