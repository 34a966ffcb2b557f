import Maketree.Makefile
/-! The command line `[options] [MAKEFILE]`: `-f`, `-C`, `--debug-log`, `-d`, `-v` and `-h`, long
options shortened to any unique prefix and short options grouped. It reads one makefile, taken from
the `-C` directory, and prints its dump. -/
namespace Maketree.Command

inductive Switch where
  | makefile
  | verbose
  | debugLog
  | directory
  | version
  | help
  deriving DecidableEq, Repr

def Switch.takesValue : Switch → Bool
  | .makefile | .debugLog | .directory => true
  | _ => false

def longNames : List (String × Switch) :=
  [("--file", .makefile), ("--makefile", .makefile), ("--debug-log", .debugLog),
   ("--directory", .directory), ("--version", .version), ("--help", .help)]

def shortSwitch? : Char → Option Switch
  | 'f' => some .makefile
  | 'd' => some .verbose
  | 'C' => some .directory
  | 'v' => some .version
  | 'h' => some .help
  | _ => none

inductive UsageError where
  | noSuchOption (opt : String)
  | ambiguousOption (opt : String)
  | missingValue (opt : String)
  | unexpectedValue (opt : String)
  deriving DecidableEq, Repr

structure Invocation where
  makefile : Option String
  directory : Option String
  debugLog : Option String
  verbose : Bool
  version : Bool
  help : Bool
  arguments : List String
  deriving DecidableEq, Repr

def Invocation.none : Invocation :=
  { makefile := Option.none, directory := Option.none, debugLog := Option.none, verbose := false,
    version := false, help := false, arguments := [] }

def Invocation.given (inv : Invocation) (s : Switch) (value : String) : Invocation :=
  match s with
  | .makefile => { inv with makefile := some value }
  | .debugLog => { inv with debugLog := some value }
  | .directory => { inv with directory := some value }
  | .verbose => { inv with verbose := true }
  | .version => { inv with version := true }
  | .help => { inv with help := true }

def matchLong (opt : String) : Except UsageError Switch :=
  match longNames.lookup opt with
  | some s => .ok s
  | Option.none =>
    match longNames.filter (fun (n, _) => opt.toList.isPrefixOf n.toList) with
    | [(_, s)] => .ok s
    | [] => .error (.noSuchOption opt)
    | _ => .error (.ambiguousOption opt)

def shortGroup (next : Option String) (inv : Invocation) : List Char →
    Except UsageError (Invocation × Bool)
  | [] => .ok (inv, false)
  | c :: cs =>
    match shortSwitch? c with
    | Option.none => .error (.noSuchOption (String.ofList ['-', c]))
    | some .help => .ok (inv.given .help "", false)
    | some s =>
      if s.takesValue then
        if cs.isEmpty then
          match next with
          | some v => .ok (inv.given s v, true)
          | Option.none => .error (.missingValue (String.ofList ['-', c]))
        else .ok (inv.given s (String.ofList cs), false)
      else shortGroup next (inv.given s "") cs

def readArgs (inv : Invocation) : List String → Except UsageError Invocation
  | [] => .ok inv
  | arg :: rest =>
    if arg = "--" then .ok { inv with arguments := inv.arguments ++ rest }
    else if "--".toList.isPrefixOf arg.toList then
      let (opt, explicit) := Text.splitAtFirst '=' arg
      match matchLong opt with
      | .error e => .error e
      | .ok s =>
        if s.takesValue then
          match explicit with
          | some v => readArgs (inv.given s v) rest
          | Option.none =>
            match rest with
            | v :: rest' => readArgs (inv.given s v) rest'
            | [] => .error (.missingValue opt)
        else match explicit, s with
          | some _, _ => .error (.unexpectedValue opt)
          | Option.none, .help => .ok (inv.given .help "")
          | Option.none, _ => readArgs (inv.given s "") rest
    else if arg.toList.head? == some '-' && arg.length > 1 then
      match shortGroup rest.head? inv (arg.toList.drop 1) with
      | .error e => .error e
      | .ok (inv, took) =>
        if inv.help then .ok inv
        else if took then readArgs inv rest.tail else readArgs inv rest
    else readArgs { inv with arguments := inv.arguments ++ [arg] } rest
termination_by args => args.length
decreasing_by all_goals (simp only [List.length_cons, List.length_tail]; omega)

structure Outcome where
  exit : Except Halt Nat
  stdout : String
  log : List Notice
  error : Option MakeError

def versionText : String :=
  "mkast 0.1.0: static parser for makefiles driving cargo builds\n" ++
    "THE SOFTWARE IS PROVIDED \x22AS IS\x22, WITHOUT WARRANTY OF ANY KIND.\n"

def Invocation.makefilePath (inv : Invocation) (cwd : String) : String × List String :=
  let workDir := match inv.directory with
    | some d => Path.normalJoin cwd d
    | Option.none => cwd
  let (makefile, extra) := match inv.makefile, inv.arguments with
    | some m, rest => (m, rest)
    | Option.none, a :: rest => (a, rest)
    | Option.none, [] => ("Makefile", [])
  (Path.normalJoin workDir makefile, extra)

def openLog (files : FileSystem) : Option String → Except Halt FileSystem
  | some p =>
    if p.isEmpty then .ok files
    else
      let abs := Path.absolute files.cwd p
      match files.touch abs with
      | .ok files => .ok files
      | .error why => .error (.unhandled abs why)
  | Option.none => .ok files

/-- Runs the command line `args` in the directory `cwd` of the file system `files`. A refused command
line exits with 2 and prints nothing here; help exits with 0. The debug log is opened before the
makefile is looked for (`openLog`); when it cannot be opened, the run stops there. -/
def run (files : FileSystem) (cwd : String) (args : List String) : Outcome :=
  match readArgs Invocation.none args with
  | .error _ => { exit := .ok 2, stdout := "", log := [], error := Option.none }
  | .ok inv =>
    if inv.help then { exit := .ok 0, stdout := "", log := [], error := Option.none }
    else if inv.version then { exit := .ok 0, stdout := versionText, log := [], error := Option.none }
    else match openLog files inv.debugLog with
    | .error h => { exit := .error h, stdout := "", log := [], error := Option.none }
    | .ok files =>
      let (path, extra) := inv.makefilePath cwd
      let log := if extra.isEmpty then [] else [Notice.extraArguments extra]
      if !files.isFile path then
        { exit := .ok 2, stdout := "No makefile found\n", log := log, error := Option.none }
      else
        let (result, parseLog) := (Makefile.parseFile files path Option.none).run
        let log := log ++ [Notice.reading path] ++ parseLog
        match result with
        | .ok m => { exit := .ok 0, stdout := m.dump, log := log, error := Option.none }
        | .error (.error e) => { exit := .ok 2, stdout := e.render ++ "\n", log := log, error := some e }
        | .error h => { exit := .error h, stdout := "", log := log, error := Option.none }

end Maketree.Command
