import Maketree.LineStream
import Maketree.Context
import Maketree.Statement
/-! The state of reading a makefile, the line stream and the variables, and `ReadM`, the reading
computation over it. -/
namespace Maketree.Parse

structure Reader where
  stream : LineStream
  context : Context

abbrev ReadM := StateT Reader Journal

def place : ReadM (Option Location) := return (← get).stream.loc

def peek : ReadM String := return (← get).stream.peek

def atEnd : ReadM Bool := return (← get).stream.eof

def readLine (defer : Option Bool) : ReadM String := do
  let r ← get
  let (line, s) ← r.stream.readLine defer
  set { r with stream := s }
  pure line

def openInclude (path : String) : ReadM Unit := do
  let r ← get
  let s ← r.stream.includeFile path
  set { r with stream := s }

def assign (raw value : String) : ReadM String := do
  let r ← get
  let (name, ctx) := r.context.set raw value
  set { r with context := ctx }
  pure name

def unassign (name : String) : ReadM Unit :=
  modify fun r => { r with context := r.context.unset name }

def note (n : Notice) : ReadM Unit := Journal.note n

def fail {α : Type} (f : Fault) (loc : Option Location) : ReadM α := throw (.error ⟨f, loc⟩)

def startsWithHash (s : String) : Bool := s.toList.head? == some '#'

def commentText (s : String) : String := Text.trim (String.ofList s.toList.tail)

def exportDirective (d : Directive) (line : String) (loc : Option Location) : ReadM Statement := do
  let arg := d.argument line
  if arg.isEmpty then fail (.exportWithoutName d.keyword) loc
  else if d == .unexportVar then
    unassign arg
    pure (.unexportVar arg)
  else
    match Text.splitAtFirst '=' arg with
    | (name, some value) =>
      if Text.isBlankText name then fail .exportWithoutAssignment loc
      else
        let value := Text.trim value
        let name ← assign name value
        pure (.exportVar name value)
    | (_, none) => fail .exportWithoutAssignment loc

end Maketree.Parse
