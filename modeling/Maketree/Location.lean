/-! Places in makefiles: a path and a line number counted from one. -/
namespace Maketree

structure Location where
  path : String
  line : Nat
  deriving DecidableEq, Repr

def Location.render (loc : Location) : String := loc.path ++ ":" ++ toString loc.line

def Location.renderOpt : Option Location → String
  | some loc => loc.render
  | none => "None"

end Maketree
