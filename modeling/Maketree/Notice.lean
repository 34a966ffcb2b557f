import Maketree.Error
import Maketree.Text.Quoted
/-! Notices that the reader logs while it goes on, and `Journal`, the computation that keeps the log
and may stop with a `Halt`. -/
namespace Maketree

inductive Level where
  | debug
  | info
  | warning
  deriving DecidableEq, Repr

inductive Channel where
  | parser
  | stream
  | command
  deriving DecidableEq, Repr

def Channel.loggerName : Channel → String
  | .parser => "mkast.parser"
  | .stream => "mkast.stream"
  | .command => "mkast.execution"

def Level.name : Level → String
  | .debug => "DEBUG"
  | .info => "INFO"
  | .warning => "WARNING"

inductive Notice where
  | unhandled (loc : Option Location) (line : String)
  | extraIncludeWords (loc : Option Location) (words : List String)
  | cdFailed (loc : Option Location) (dir : String)
  | changedDirectory (loc : Option Location) (dir : String)
  | cdWithoutDirectory (loc : Option Location)
  | unknownCargoSubcommand (loc : Option Location) (line : String)
  | manifestPathMissing (loc : Option Location)
  | manifestOutsideRoot (loc : Option Location) (manifest root : String)
  | commentInContinuation (path : String) (line : Nat) (text : String)
  | reading (path : String)
  | extraArguments (args : List String)
  | openedFile (path : String)
  | closedFile (path : String)
  deriving DecidableEq, Repr

namespace Notice

def level : Notice → Level
  | .openedFile .. | .closedFile .. => .debug
  | .changedDirectory .. | .reading .. => .info
  | _ => .warning

def channel : Notice → Channel
  | .commentInContinuation .. | .openedFile .. | .closedFile .. => .stream
  | .reading .. | .extraArguments .. => .command
  | _ => .parser

def message : Notice → String
  | .unhandled loc line => Location.renderOpt loc ++ ": Unhandled: " ++ line
  | .extraIncludeWords loc ws =>
    Location.renderOpt loc ++ ": Ignoring tokens after include statement: " ++ Text.quoteList ws
  | .cdFailed loc dir => Location.renderOpt loc ++ ": Failed to cd into " ++ dir
  | .changedDirectory loc dir => Location.renderOpt loc ++ ": Changed to " ++ dir
  | .cdWithoutDirectory loc =>
    Location.renderOpt loc ++ ": Expected a directory after \x27cd\x27, ignoring it"
  | .unknownCargoSubcommand loc line =>
    Location.renderOpt loc ++ ": Unknown cargo subcommand in \x27" ++ line ++
      "\x27, treating it as a generic step"
  | .manifestPathMissing loc =>
    Location.renderOpt loc ++ ": Expected a manifest path after --manifest-path"
  | .manifestOutsideRoot loc manifest root =>
    Location.renderOpt loc ++ ": Manifest " ++ manifest ++ " is outside of " ++ root
  | .commentInContinuation path line text =>
    path ++ ":" ++ toString line ++ ": Ignoring a comment line following a line continuation: " ++
      text
  | .reading path => "Parsing " ++ path
  | .extraArguments args => "Ignoring extra arguments: " ++ Text.quoteList args
  | .openedFile path => "Reading makefile \x27" ++ path ++ "\x27"
  | .closedFile path => "Finished reading makefile \x27" ++ path ++ "\x27"

def render (n : Notice) : String := n.level.name ++ " " ++ n.channel.loggerName ++ ": " ++ n.message

end Notice

abbrev Journal := ExceptT Halt (StateM (List Notice))

def Journal.note (n : Notice) : Journal Unit := modify (· ++ [n])

def Journal.run {α : Type} (m : Journal α) : Except Halt α × List Notice := (ExceptT.run m).run []

end Maketree
