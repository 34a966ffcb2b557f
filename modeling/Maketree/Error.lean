import Maketree.Location
import Maketree.FileSystem
import Maketree.Text.Utf8
/-! Errors of reading a makefile: a `Fault`, located in a `MakeError` at the line last returned, and
`Halt`, every way a run can stop without a result. -/
namespace Maketree

inductive Fault where
  | unmatchedDirective (keyword : String)
  | conditionWithoutArguments
  | exportWithoutName (keyword : String)
  | exportWithoutAssignment
  | includeWithoutPath
  | targetWithoutName
  | unterminatedConditional
  | cannotOpen (path : String) (why : OpenFailure)
  | notUtf8 (failure : Text.Utf8.Failure)
  deriving DecidableEq, Repr

def Fault.message : Fault → String
  | .unmatchedDirective kw => "unmatched \x27" ++ kw ++ "\x27 directive"
  | .conditionWithoutArguments => "No arguments after conditional"
  | .exportWithoutName kw => "Expected a name after \x27" ++ kw ++ "\x27"
  | .exportWithoutAssignment => "Expected NAME=VALUE expression after \x27export\x27"
  | .includeWithoutPath => "Expected a file name after \x27include\x27"
  | .targetWithoutName => "Expected a target name followed by \x27:\x27"
  | .unterminatedConditional => "Condition never terminated with endif"
  | .cannotOpen path why => "Failed to open file \x27" ++ path ++ "\x27: " ++ why.describe
  | .notUtf8 failure => "File is not valid UTF-8 text: " ++ failure.describe

structure MakeError where
  fault : Fault
  loc : Option Location
  deriving DecidableEq, Repr

def MakeError.render (e : MakeError) : String :=
  match e.loc with
  | some loc => loc.render ++ ":" ++ e.fault.message
  | none => e.fault.message

inductive Halt where
  | error (e : MakeError)
  | unhandled (path : String) (why : OpenFailure)
  | exhausted
  deriving DecidableEq, Repr

def Halt.message : Halt → String
  | .error e => e.render
  | .unhandled path why => why.report path
  | .exhausted => "out of fuel"

end Maketree
