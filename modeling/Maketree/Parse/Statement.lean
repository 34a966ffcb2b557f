import Maketree.Parse.Recipe
/-! Statements, a trimmed line read as the first construct that fits it; conditionals read their
arms up to `else` or `endif`. The loops take `fuel`, one unit a call. -/
namespace Maketree.Parse

open Text

def target (fuel : Nat) (line : String) : ReadM Statement := do
  let loc ← place
  match splitAtFirst ':' (trim line) with
  | (_, none) => fail .targetWithoutName loc
  | (name, some deps) =>
    let name := trim name
    if name.isEmpty then fail .targetWithoutName loc
    else
      let (doubleColon, deps) :=
        if deps.toList.head? == some ':' then (true, String.ofList deps.toList.tail) else (false, deps)
      let (deps, command) := splitAtFirst ';' deps
      let definedIn := match loc, (← get).stream.currentFile with
        | some l, _ => l.path
        | none, some f => f
        | none, none => "None"
      let root := (← get).context.rootDir
      let (first, cwd) ← match command with
        | some c => if isBlankText c then pure ([], root) else do
            let (s, cwd) ← step root c loc
            pure ([s], cwd)
        | none => pure ([], root)
      let rest ← recipeSteps fuel cwd
      pure (.target name (Text.words deps) definedIn doubleColon (first ++ rest))

def includeDirective (line : String) : ReadM Statement := do
  match Text.words line with
  | _ :: path :: extra =>
    if !extra.isEmpty then note (.extraIncludeWords (← place) extra)
    openInclude path
    pure (.includeFile path)
  | _ => fail .includeWithoutPath (← place)

mutual

/-- The statement of a logical line; none for an assignment. -/
def statement : Nat → String → ReadM (Option Statement)
  | 0, _ => throw .exhausted
  | fuel + 1, raw => do
    let line := trim raw
    if startsWithHash line then return some (.comment (commentText line))
    let d := directive? line
    match d with
    | some .exportVar => return some (← exportDirective .exportVar line (← place))
    | some .unexportVar => return some (← exportDirective .unexportVar line (← place))
    | _ => pure ()
    if isAssignment line then
      let (name, value) := splitAtFirst '=' line
      let _ ← assign name (trim (value.getD ""))
      return none
    if isInclude line then return some (← includeDirective line)
    match d with
    | some .ifeq | some .ifneq =>
      let (guard, steps, tail) ← arm fuel line
      return some (.conditional guard steps tail)
    | some .orElse => fail (.unmatchedDirective "else") (← place)
    | some .endif => fail (.unmatchedDirective "endif") (← place)
    | _ => pure ()
    if isRuleHeader line then return some (← target fuel line)
    note (.unhandled (← place) line)
    return some (.command line)

def arm : Nat → String → ReadM (Guard × List Statement × Tail)
  | 0, _ => throw .exhausted
  | fuel + 1, line => do
    let start ← place
    match firstWordAndRest line with
    | [keyword, condition] =>
      let (steps, tail) ← armBody fuel start
      pure ({ condition := trim condition, expected := keyword == "ifeq" }, steps, tail)
    | _ => fail .conditionWithoutArguments start

/-- The statements of an arm that started at `start`, up to its `endif` or `else`, and the rest of the
chain. -/
def armBody : Nat → Option Location → ReadM (List Statement × Tail)
  | 0, _ => throw .exhausted
  | fuel + 1, start => do
    if ← atEnd then fail .unterminatedConditional start
    let next := trim (← peek)
    match directive? next with
    | some .endif =>
      let _ ← readLine none
      pure ([], .endif)
    | some .orElse =>
      let rest := Directive.orElse.argument next
      let _ ← readLine (some (isInclude rest))
      match directive? rest with
      | some .ifeq | some .ifneq =>
        let (guard, steps, tail) ← arm fuel rest
        pure ([], .elseIf guard steps tail)
      | _ => pure ([], .otherwise (← elseArm fuel rest start))
    | _ =>
      let s ← statement fuel (← readLine none)
      let (steps, tail) ← armBody fuel start
      pure (s.toList ++ steps, tail)

/-- The last arm of a chain that started at `start`: the statement on the `else` line itself, `rest`,
unless it is empty or a comment, then the statements up to `endif`. -/
def elseArm : Nat → String → Option Location → ReadM (List Statement)
  | 0, _, _ => throw .exhausted
  | fuel + 1, rest, start => do
    let first ← if rest.isEmpty || startsWithHash rest then pure none else statement fuel rest
    let more ← elseBody fuel start
    pure (first.toList ++ more)

def elseBody : Nat → Option Location → ReadM (List Statement)
  | 0, _ => throw .exhausted
  | fuel + 1, start => do
    if ← atEnd then fail .unterminatedConditional start
    if directive? (trim (← peek)) == some .endif then
      let _ ← readLine none
      pure []
    else
      let s ← statement fuel (← readLine none)
      let more ← elseBody fuel start
      pure (s.toList ++ more)

end

def statements : Nat → ReadM (List Statement)
  | 0 => throw .exhausted
  | fuel + 1 => do
    if ← atEnd then pure []
    else
      let s ← statement fuel (← readLine none)
      let rest ← statements fuel
      pure (s.toList ++ rest)

end Maketree.Parse
