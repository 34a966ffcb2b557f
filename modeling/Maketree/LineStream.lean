import Maketree.Source
import Maketree.Notice
import Maketree.LineKind
/-! The line stream: the logical lines of a makefile and of the files it includes, with one line of
lookahead. After an include line reading waits for `include`, which opens the file on top of the
stack of open files. -/
namespace Maketree

open Text

structure Frame where
  path : String
  lineNo : Nat
  pending : List String
  failure : Option Utf8.Failure
  deriving DecidableEq, Repr

namespace Frame

def ofSource (path : String) (src : Source) : Frame :=
  { path := path, lineNo := 0, pending := src.lines, failure := src.failure }

def pastEnd (path : String) (failure : Option Utf8.Failure) (n : Nat) : Journal Unit :=
  match failure with
  | some f => throw (.error ⟨.notUtf8 f, some ⟨path, n + 1⟩⟩)
  | none => pure ()

def isComment (line : String) : Bool := (dropBlanks line.toList).head? == some '#'

def continues (line : String) : Bool := !isComment line && line.toList.getLast? == some '\\'

def dropLastChar (line : String) : String := String.ofList line.toList.dropLast

def continuation (path : String) (failure : Option Utf8.Failure) (base : String) :
    Nat → List String → Journal (String × Nat × List String)
  | n, [] => do
    pastEnd path failure n
    pure (base, n, [])
  | n, l :: rest =>
    if isBlankText l then pure (base, n + 1, rest)
    else if isComment l then do
      Journal.note (.commentInContinuation path (n + 1) (trim l))
      continuation path failure base (n + 1) rest
    else if continues l then do
      let (text, m, left) ← continuation path failure (dropLastChar l) (n + 1) rest
      pure (base ++ trim text, m, left)
    else pure (base ++ trim l, n + 1, rest)

def logicalFrom (path : String) (failure : Option Utf8.Failure) :
    Nat → List String → Journal (Option (String × Nat × Nat × List String))
  | n, [] => do
    pastEnd path failure n
    pure none
  | n, l :: rest =>
    if isBlankText l then logicalFrom path failure (n + 1) rest
    else if continues l then do
      let (text, m, left) ← continuation path failure (dropLastChar l) (n + 1) rest
      pure (some (text, n + 1, m, left))
    else pure (some (l, n + 1, n + 1, rest))

def nextLogical (f : Frame) : Journal (Option (String × Location × Frame)) := do
  match ← logicalFrom f.path f.failure f.lineNo f.pending with
  | none => pure none
  | some (text, start, n, left) =>
    pure (some (text, ⟨f.path, start⟩, { f with lineNo := n, pending := left }))

end Frame

structure LineStream where
  files : FileSystem
  workDir : String
  frames : List Frame
  eof : Bool
  loc : Option Location
  next : String
  nextLoc : Option Location

namespace LineStream

def nextOf : List Frame → Journal (Option (String × Location × List Frame))
  | [] => pure none
  | f :: rest => do
    match ← f.nextLogical with
    | none => do
      Journal.note (.closedFile f.path)
      nextOf rest
    | some (text, loc, f') => pure (some (text, loc, f' :: rest))

/-- Reads the next logical line into the lookahead; at the end of the input the lookahead is empty
and `eof` is set. -/
def advance (s : LineStream) : Journal LineStream := do
  match ← nextOf s.frames with
  | none => pure { s with frames := [], eof := true, next := "", nextLoc := none }
  | some (text, loc, frames) =>
    pure { s with frames := frames, eof := false, next := text, nextLoc := some loc }

def push (s : LineStream) (path : String) : Journal LineStream :=
  match s.files.read path with
  | .ok bytes => do
    Journal.note (.openedFile path)
    pure { s with frames := Frame.ofSource path (Source.ofBytes bytes) :: s.frames }
  | .error .nulInPath => throw (.unhandled path .nulInPath)
  | .error why => throw (.error ⟨.cannotOpen path why, s.loc⟩)

def peek (s : LineStream) : String := s.next

def currentFile (s : LineStream) : Option String := s.frames.head?.map (·.path)

/-- Returns the lookahead line and reads the next one, unless `defer` says that reading waits for
`include`; by default it waits after an include line. -/
def readLine (s : LineStream) (defer : Option Bool) : Journal (String × LineStream) := do
  let line := s.next
  let s := { s with loc := s.nextLoc }
  if defer.getD (isInclude line) then pure (line, s) else pure (line, ← s.advance)

def includeFile (s : LineStream) (path : String) : Journal LineStream := do
  (← s.push (Path.normalJoin s.workDir path)).advance

def close (s : LineStream) : LineStream := { s with frames := [] }

def empty (files : FileSystem) (workDir : String) : LineStream :=
  { files := files, workDir := workDir, frames := [], eof := false, loc := none, next := "",
    nextLoc := none }

def defaultWorkDir (files : FileSystem) (path : String) : String :=
  Path.dirName (Path.absolute files.cwd path)

def openFile (files : FileSystem) (path : String) (workDir : Option String) : Journal LineStream := do
  let s := empty files (workDir.getD (defaultWorkDir files path))
  (← s.push path).advance

def ofText (files : FileSystem) (text path : String) (workDir : Option String) :
    Journal LineStream :=
  let s := empty files (workDir.getD (defaultWorkDir files path))
  { s with frames := [Frame.ofSource path (Source.ofText text)] }.advance

def pendingLines (s : LineStream) : Nat := s.frames.foldl (fun n f => n + f.pending.length) 0

def drainFor : Nat → LineStream → Journal (List String × LineStream)
  | 0, s => pure ([], s)
  | fuel + 1, s =>
    if s.eof then pure ([], s)
    else do
      let (line, s) ← s.readLine (some false)
      let (lines, s) ← drainFor fuel s
      pure (line :: lines, s)

def drain (s : LineStream) : Journal (List String × LineStream) := drainFor (s.pendingLines + 1) s

end LineStream

end Maketree
