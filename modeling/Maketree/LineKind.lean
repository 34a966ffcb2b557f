import Maketree.Text.Blank
import Maketree.Text.WordChar
/-! The kinds of logical lines, told apart by how a trimmed line starts: directives, assignments,
include lines and rule headers. -/
namespace Maketree

open Text

inductive Directive where
  | ifeq
  | ifneq
  | orElse
  | endif
  | exportVar
  | unexportVar
  deriving DecidableEq, Repr

def Directive.keyword : Directive → String
  | .ifeq => "ifeq"
  | .ifneq => "ifneq"
  | .orElse => "else"
  | .endif => "endif"
  | .exportVar => "export"
  | .unexportVar => "unexport"

def Directive.all : List Directive := [.ifeq, .ifneq, .orElse, .endif, .exportVar, .unexportVar]

def Directive.leads (d : Directive) (cs : List Char) : Bool :=
  let k := d.keyword.toList
  k.isPrefixOf cs && match cs.drop k.length with
    | [] => true
    | c :: _ => isBlank c

def directive? (line : String) : Option Directive := Directive.all.find? (·.leads line.toList)

def Directive.argument (d : Directive) (line : String) : String :=
  String.ofList (trimChars (line.toList.drop d.keyword.length))

def isNameChar (c : Char) : Bool := isWordChar c || c == '.' || c == '-'

def startsWithAssignOp : List Char → Bool
  | '=' :: _ => true
  | '?' :: '=' :: _ => true
  | ':' :: '=' :: _ => true
  | ':' :: ':' :: '=' :: _ => true
  | '+' :: '=' :: _ => true
  | _ => false

def isAssignment (line : String) : Bool :=
  let cs := line.toList
  !(cs.takeWhile isNameChar).isEmpty && startsWithAssignOp (dropBlanks (cs.dropWhile isNameChar))

def isRuleHeader (line : String) : Bool :=
  match line.toList.dropWhile (· != ':') with
  | ':' :: '=' :: _ => false
  | ':' :: _ => true
  | _ => false

def startsAssignment (cs : List Char) : Bool :=
  match (dropBlanks cs).dropWhile (fun c => c == ':' || c == '+' || c == '?') with
  | '=' :: _ => true
  | _ => false

def isIncludeChars : List Char → Bool
  | 'i' :: 'n' :: 'c' :: 'l' :: 'u' :: 'd' :: 'e' :: rest =>
    match rest with
    | [] => true
    | c :: after => isBlank c && !startsAssignment after
  | _ => false

/-- Whether a line, once trimmed, is an include line. -/
def isInclude (line : String) : Bool := isIncludeChars (trimChars line.toList)

example : isInclude "  include a.mk" ∧ isInclude "include" ∧ ¬ isInclude "include := x" ∧
    ¬ isInclude "includes a" ∧ isInclude "include x = y" := by decide
set_option maxRecDepth 4096 in
example : isAssignment "A.b-c ::= 1" ∧ ¬ isAssignment "FOO: = x" ∧ isRuleHeader "FOO: = x" := by
  decide
example : directive? "export" = some .exportVar ∧ directive? "exportA=1" = none ∧
    directive? "else ifeq (a,b)" = some .orElse := by decide

end Maketree
