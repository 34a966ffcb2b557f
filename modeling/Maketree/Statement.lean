import Maketree.Text.Blank
import Maketree.Text.Quoted
/-! Statements of a makefile, as read and never evaluated, with their dump, their equality and
`Statement.flatten`. -/
namespace Maketree

open Text

inductive Subcommand where
  | build
  | clean
  | run
  | update
  deriving DecidableEq, Repr

def Subcommand.name : Subcommand → String
  | .build => "BUILD"
  | .clean => "CLEAN"
  | .run => "RUN"
  | .update => "UPDATE_DEPENDENCIES"

def Subcommand.ofWord? : String → Option Subcommand
  | "build" => some .build
  | "clean" => some .clean
  | "run" => some .run
  | "update" => some .update
  | _ => none

structure Guard where
  condition : String
  expected : Bool
  deriving DecidableEq, Repr

def Guard.keyword (g : Guard) : String := if g.expected then "ifeq" else "ifneq"

mutual

inductive Statement where
  | comment (text : String)
  | includeFile (path : String)
  | exportVar (name value : String)
  | unexportVar (name : String)
  | command (text : String)
  | cargo (sub : Subcommand) (directory : Option String) (text : String)
  | target (name : String) (deps : List String) (definedIn : String) (doubleColon : Bool)
      (steps : List Statement)
  | conditional (guard : Guard) (steps : List Statement) (tail : Tail)

inductive Tail where
  | endif
  | elseIf (guard : Guard) (steps : List Statement) (tail : Tail)
  | otherwise (steps : List Statement)

end

mutual

def Statement.beq : Statement → Statement → Bool
  | .comment a, .comment b => a == b
  | .includeFile a, .includeFile b => a == b
  | .exportVar n v, .exportVar n' v' => n == n' && v == v'
  | .unexportVar a, .unexportVar b => a == b
  | .command a, .command b => a == b
  | .cargo s d t, .cargo s' d' t' => s == s' && d == d' && t == t'
  | .target n ds di dc ss, .target n' ds' di' dc' ss' =>
    n == n' && ds == ds' && di == di' && dc == dc' && Statement.beqAll ss ss'
  | .conditional g ss t, .conditional g' ss' t' => g == g' && Statement.beqAll ss ss' && Tail.beq t t'
  | _, _ => false

def Statement.beqAll : List Statement → List Statement → Bool
  | [], [] => true
  | a :: as, b :: bs => Statement.beq a b && Statement.beqAll as bs
  | _, _ => false

def Tail.beq : Tail → Tail → Bool
  | .endif, .endif => true
  | .elseIf g ss t, .elseIf g' ss' t' => g == g' && Statement.beqAll ss ss' && Tail.beq t t'
  | .otherwise ss, .otherwise ss' => Statement.beqAll ss ss'
  | _, _ => false

end

instance : BEq Statement := ⟨Statement.beq⟩

mutual

def Statement.flatten : List Statement → List Statement
  | [] => []
  | .conditional _ steps tail :: rest =>
    Statement.flatten steps ++ Tail.flatten tail ++ Statement.flatten rest
  | s :: rest => s :: Statement.flatten rest

def Tail.flatten : Tail → List Statement
  | .endif => []
  | .elseIf _ steps tail => Statement.flatten steps ++ Tail.flatten tail
  | .otherwise steps => Statement.flatten steps

end

def commandPieces (text : String) : List String :=
  (splitAtAnd text.toList).map fun cs => String.ofList (trimChars cs)

def dumpLine (s : String) : String := s ++ "\n"

def dumpCommand (indent text : String) : String :=
  match commandPieces text with
  | first :: second :: rest =>
    let later := second :: rest
    dumpLine (indent ++ first ++ " && \\") ++
      String.join (later.dropLast.map fun c => dumpLine (indent ++ "    " ++ c ++ " && \\")) ++
      dumpLine (indent ++ "    " ++ later.getLast?.getD "")
  | _ => dumpLine (indent ++ text)

def dumpGuard (indent pre : String) (g : Guard) : String :=
  dumpLine (indent ++ pre ++ (if g.expected then "IfEq" else "IfNotEq") ++ " " ++ g.condition)

mutual

def Statement.dump (indent : String) : Statement → String
  | .comment text => dumpLine (indent ++ "Comment " ++ text)
  | .includeFile path => dumpLine (indent ++ "Include " ++ path)
  | .exportVar name value => dumpLine (indent ++ "Export " ++ name ++ "=" ++ value)
  | .unexportVar name => dumpLine (indent ++ "Unexport " ++ name)
  | .command text => dumpCommand indent text
  | .cargo sub directory text =>
    dumpLine (indent ++ "Cargo " ++ sub.name ++ " " ++ directory.getD "") ++
      dumpLine (indent ++ "    Original: " ++ quote text)
  | .target name deps definedIn doubleColon steps =>
    dumpLine (indent ++ "Target " ++ name ++ (if doubleColon then "::" else ":") ++ " " ++
        " ".intercalate deps) ++
      dumpLine (indent ++ "  Defined in: " ++ definedIn) ++
      Statement.dumpAll (indent ++ "    ") steps
  | .conditional guard steps tail =>
    dumpGuard indent "" guard ++ Statement.dumpAll (indent ++ "  ") steps ++ Tail.dump indent tail

def Statement.dumpAll (indent : String) : List Statement → String
  | [] => ""
  | s :: rest => s.dump indent ++ Statement.dumpAll indent rest

def Tail.dump (indent : String) : Tail → String
  | .endif => ""
  | .elseIf guard steps tail =>
    dumpGuard indent "Else " guard ++ Statement.dumpAll (indent ++ "  ") steps ++ Tail.dump indent tail
  | .otherwise steps => dumpLine (indent ++ "Else") ++ Statement.dumpAll (indent ++ "  ") steps

end

end Maketree
