import Maketree.Path
import Maketree.Text.Quoted
/-! A file system as a value, keyed by absolute normal paths, with paths looked up one component at
a time as the operating system does, within its limits on path and name lengths. -/
namespace Maketree

inductive Entry where
  | directory
  | file (content : List UInt8)
  deriving DecidableEq, Repr

inductive OpenFailure where
  | noEntry
  | isDirectory
  | notDirectory
  | nulInPath
  | nameTooLong
  deriving DecidableEq, Repr

def OpenFailure.describe : OpenFailure → String
  | .noEntry => "No such file or directory"
  | .isDirectory => "Is a directory"
  | .notDirectory => "Not a directory"
  | .nulInPath => "embedded null byte"
  | .nameTooLong => "File name too long"

def OpenFailure.errno : OpenFailure → Option Nat
  | .noEntry => some 2
  | .notDirectory => some 20
  | .isDirectory => some 21
  | .nameTooLong => some 36
  | .nulInPath => none

def OpenFailure.report (why : OpenFailure) (path : String) : String :=
  match why.errno with
  | some n => "[Errno " ++ toString n ++ "] " ++ why.describe ++ ": " ++ Text.quote path
  | none => why.describe

def nameLimit : Nat := 255

def pathLimit : Nat := 4095

structure FileSystem where
  cwd : String
  directories : List String
  files : List (String × List UInt8)

namespace FileSystem

def keyOf (comps : List String) : String := "/" ++ "/".intercalate comps

def entryAt (fs : FileSystem) (comps : List String) : Option Entry :=
  if comps.isEmpty || fs.directories.contains (keyOf comps) then some .directory
  else (fs.files.lookup (keyOf comps)).map .file

def walk (fs : FileSystem) (here : List String) : List String → Except OpenFailure Entry
  | [] => .ok .directory
  | c :: rest =>
    if c = "" ∨ c = "." then fs.walk here rest
    else if c = ".." then fs.walk here.dropLast rest
    else if nameLimit < c.utf8ByteSize then .error .nameTooLong
    else match fs.entryAt (here ++ [c]) with
      | none => .error .noEntry
      | some .directory => fs.walk (here ++ [c]) rest
      | some (.file content) => if rest.isEmpty then .ok (.file content) else .error .notDirectory

def pieces (p : String) : List String := (p.toList.splitOn '/').map String.ofList

def lookup (fs : FileSystem) (p : String) : Except OpenFailure Entry :=
  if p.isEmpty then .error .noEntry
  else if p.toList.contains (Char.ofNat 0) then .error .nulInPath
  else if pathLimit < p.utf8ByteSize then .error .nameTooLong
  else
    let abs := if Path.isAbsolute p then p else fs.cwd ++ "/" ++ p
    fs.walk [] (pieces abs)

def read (fs : FileSystem) (p : String) : Except OpenFailure (List UInt8) :=
  match fs.lookup p with
  | .ok (.file content) => .ok content
  | .ok .directory => .error .isDirectory
  | .error e => .error e

def isDir (fs : FileSystem) (p : String) : Bool :=
  match fs.lookup p with
  | .ok .directory => true
  | _ => false

def isFile (fs : FileSystem) (p : String) : Bool :=
  match fs.lookup p with
  | .ok (.file _) => true
  | _ => false

def ancestry (p : String) : List String :=
  let comps := (Path.components p.toList).map String.ofList
  (List.range comps.length).map fun i => keyOf (comps.take (i + 1))

def addDirectory (fs : FileSystem) (p : String) : FileSystem :=
  let new := (ancestry (Path.absolute fs.cwd p)).filter (!fs.directories.contains ·)
  { fs with directories := fs.directories ++ new }

def addFile (fs : FileSystem) (p : String) (content : List UInt8) : FileSystem :=
  let abs := Path.absolute fs.cwd p
  let fs := fs.addDirectory (Path.dirName abs)
  { fs with files := (abs, content) :: fs.files.filter (·.1 != abs) }

def touch (fs : FileSystem) (p : String) : Except OpenFailure FileSystem :=
  match fs.lookup p with
  | .ok (.file _) => .ok fs
  | .ok .directory => .error .isDirectory
  | .error .noEntry =>
    let abs := Path.absolute fs.cwd p
    match fs.walk [] (pieces (Path.dirName abs)) with
    | .ok .directory => .ok (fs.addFile abs [])
    | .ok (.file _) => .error .notDirectory
    | .error e => .error e
  | .error e => .error e

end FileSystem

end Maketree
