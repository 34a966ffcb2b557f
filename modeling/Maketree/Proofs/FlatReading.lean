import Mathlib
import Maketree.Parse.Statement
import Maketree.Proofs.LineKind
/-! The flat reading: the parse with every conditional flattened, noting each line it reads and
what became of it. -/
namespace Maketree.Parse

open Text

inductive Use where
  | kept
  | consumed (stand : Option String)
  deriving DecidableEq, Repr

structure Met where
  text : String
  loc : Option Location
  waited : Bool
  use : Use
  deriving DecidableEq, Repr

abbrev Trace := List Met

def opensConditional (raw : String) : Bool :=
  let line := trim raw
  !startsWithHash line && !isAssignment line &&
    (directive? line == some .ifeq || directive? line == some .ifneq)

def headsRule (raw : String) : Bool :=
  let line := trim raw
  !startsWithHash line && !isAssignment line && !isInclude line && directive? line == none &&
    isRuleHeader line

def loopUse (raw : String) : Use := if opensConditional raw then .consumed none else .kept

def elseUse (rest : String) : Use :=
  match directive? rest with
  | some .ifeq | some .ifneq => .consumed none
  | _ => .consumed (if rest.isEmpty || startsWithHash rest then none else some rest)

namespace Flat

def readNoting (defer : Option Bool) (use : String → Use) : ReadM (String × Trace) := do
  let line ← readLine defer
  let loc ← place
  pure (line, [⟨line, loc, defer.getD (isInclude line), use line⟩])

def recipeSteps : Nat → String → ReadM (List Statement × Trace)
  | 0, _ => throw .exhausted
  | fuel + 1, cwd => do
    if (← peek).toList.head? == some '\t' then
      let (line, noted) ← readNoting (some false) fun _ => .kept
      if isBlankText line then
        let (steps, more) ← recipeSteps fuel cwd
        pure (steps, noted ++ more)
      else
        let (s, cwd) ← step cwd line (← place)
        let (rest, more) ← recipeSteps fuel cwd
        pure (s :: rest, noted ++ more)
    else pure ([], [])

def target (fuel : Nat) (line : String) : ReadM (Statement × Trace) := do
  let loc ← place
  match splitAtFirst ':' (trim line) with
  | (_, none) => fail .targetWithoutName loc
  | (name, some deps) =>
    let name := trim name
    if name.isEmpty then fail .targetWithoutName loc
    else
      let (doubleColon, deps) :=
        if deps.toList.head? == some ':' then (true, String.ofList deps.toList.tail) else (false, deps)
      let (deps, command) := splitAtFirst ';' deps
      let definedIn := match loc, (← get).stream.currentFile with
        | some l, _ => l.path
        | none, some f => f
        | none, none => "None"
      let root := (← get).context.rootDir
      let (first, cwd) ← match command with
        | some c => if isBlankText c then pure ([], root) else do
            let (s, cwd) ← step root c loc
            pure ([s], cwd)
        | none => pure ([], root)
      let (rest, noted) ← recipeSteps fuel cwd
      pure (.target name (Text.words deps) definedIn doubleColon (first ++ rest), noted)

mutual

def statement : Nat → String → ReadM (List Statement × Trace)
  | 0, _ => throw .exhausted
  | fuel + 1, raw =>
    if opensConditional raw then arm fuel (trim raw)
    else if headsRule raw then do
      let (s, noted) ← target fuel (trim raw)
      pure ([s], noted)
    else do
      let s ← Parse.statement (fuel + 1) raw
      pure (Statement.flatten s.toList, [])

def arm : Nat → String → ReadM (List Statement × Trace)
  | 0, _ => throw .exhausted
  | fuel + 1, line => do
    let start ← place
    match firstWordAndRest line with
    | [_, _] => armBody fuel start
    | _ => fail .conditionWithoutArguments start

def armBody : Nat → Option Location → ReadM (List Statement × Trace)
  | 0, _ => throw .exhausted
  | fuel + 1, start => do
    if ← atEnd then fail .unterminatedConditional start
    let next := trim (← peek)
    match directive? next with
    | some .endif =>
      let (_, noted) ← readNoting none fun _ => .consumed none
      pure ([], noted)
    | some .orElse =>
      let rest := Directive.orElse.argument next
      let (_, noted) ← readNoting (some (isInclude rest)) fun _ => elseUse rest
      match directive? rest with
      | some .ifeq | some .ifneq =>
        let (steps, more) ← arm fuel rest
        pure (steps, noted ++ more)
      | _ =>
        let (steps, more) ← elseArm fuel rest start
        pure (steps, noted ++ more)
    | _ =>
      let (raw, noted) ← readNoting none loopUse
      let (first, more) ← statement fuel raw
      let (steps, rest) ← armBody fuel start
      pure (first ++ steps, noted ++ more ++ rest)

def elseArm : Nat → String → Option Location → ReadM (List Statement × Trace)
  | 0, _, _ => throw .exhausted
  | fuel + 1, rest, start => do
    let (first, noted) ← if rest.isEmpty || startsWithHash rest then pure ([], []) else statement fuel rest
    let (more, rest) ← elseBody fuel start
    pure (first ++ more, noted ++ rest)

def elseBody : Nat → Option Location → ReadM (List Statement × Trace)
  | 0, _ => throw .exhausted
  | fuel + 1, start => do
    if ← atEnd then fail .unterminatedConditional start
    if directive? (trim (← peek)) == some .endif then
      let (_, noted) ← readNoting none fun _ => .consumed none
      pure ([], noted)
    else
      let (raw, noted) ← readNoting none loopUse
      let (first, more) ← statement fuel raw
      let (steps, rest) ← elseBody fuel start
      pure (first ++ steps, noted ++ more ++ rest)

end

def statements : Nat → ReadM (List Statement × Trace)
  | 0 => throw .exhausted
  | fuel + 1 => do
    if ← atEnd then pure ([], [])
    else
      let (raw, noted) ← readNoting none loopUse
      let (first, more) ← statement fuel raw
      let (steps, rest) ← statements fuel
      pure (first ++ steps, noted ++ more ++ rest)

theorem statementOpens (fuel : Nat) {raw : String} (opens : opensConditional raw = true) :
    Parse.statement (fuel + 1) raw =
      Parse.arm fuel (trim raw) >>= fun x => pure (some (.conditional x.1 x.2.1 x.2.2)) := by
  simp only [opensConditional, Bool.and_eq_true, Bool.not_eq_true', Bool.or_eq_true, beq_iff_eq] at opens
  obtain ⟨⟨hash, assignment⟩, keyword⟩ := opens
  have plain : isInclude (trim raw) = false := by
    rcases keyword with found | found <;> exact directiveNotInclude (by simpa using found)
  rw [Parse.statement]
  rcases keyword with found | found <;> simp [hash, assignment, plain, found]

theorem statementHeadsRule (fuel : Nat) {raw : String} (rule : headsRule raw = true) :
    Parse.statement (fuel + 1) raw = Parse.target fuel (trim raw) >>= fun s => pure (some s) := by
  simp only [headsRule, Bool.and_eq_true, Bool.not_eq_true', beq_iff_eq] at rule
  obtain ⟨⟨⟨⟨hash, assignment⟩, plain⟩, none⟩, header⟩ := rule
  rw [Parse.statement]
  simp [hash, assignment, plain, none, header]

theorem mapThrow {α β : Type} (f : α → β) (h : Halt) : f <$> (throw h : ReadM α) = throw h := rfl

theorem throwBind {α β : Type} (h : Halt) (f : α → ReadM β) : (throw h : ReadM α) >>= f = throw h := rfl

theorem forgetBind {α β γ : Type} {q : ReadM (α × Trace)} {p : ReadM β} {g : β → α}
    (h : Prod.fst <$> q = g <$> p) (k : α → ReadM γ) :
    (q >>= fun y => k y.1) = p >>= fun b => k (g b) := by
  rw [← bind_map_left Prod.fst q k, h, bind_map_left]

theorem readNotingForgets (defer : Option Bool) (use : String → Use) :
    Prod.fst <$> readNoting defer use = readLine defer := by
  simp [readNoting, place]

theorem recipeStepsForgets (fuel : Nat) (cwd : String) :
    Prod.fst <$> recipeSteps fuel cwd = Parse.recipeSteps fuel cwd := by
  induction fuel generalizing cwd with
  | zero => exact mapThrow _ _
  | succ fuel ih =>
    rw [recipeSteps, Parse.recipeSteps]
    simp only [map_bind]
    congr 1
    funext next
    split
    · simp only [map_bind]
      rw [← readNotingForgets (some false) fun _ => .kept, bind_map_left]
      congr 1
      funext x
      split <;> simp [← ih, bind_pure_comp]
    · simp

theorem targetForgets (fuel : Nat) (line : String) :
    Prod.fst <$> target fuel line = Parse.target fuel line := by
  rw [target, Parse.target]
  simp only [map_bind]
  refine bind_congr fun loc => ?_
  generalize splitAtFirst ':' (trim line) = parts
  rcases parts with ⟨name, _ | deps⟩
  · rfl
  · dsimp only
    split
    · rfl
    · simp only [map_bind]
      refine bind_congr fun r1 => ?_
      refine bind_congr fun r2 => ?_
      generalize (splitAtFirst ';' _).2 = command
      generalize r1.stream.currentFile = file
      rcases command with _ | c
      · rcases loc with _ | l <;> rcases file with _ | f <;> simp [← recipeStepsForgets]
      · rcases loc with _ | l <;> rcases file with _ | f <;> dsimp only <;>
          split <;> simp [← recipeStepsForgets]

theorem targetFlat (fuel : Nat) (line : String) :
    (fun a => Statement.flatten [a.1]) <$> target fuel line = (fun a => [a.1]) <$> target fuel line := by
  rw [target]
  simp only [map_bind]
  refine bind_congr fun loc => ?_
  generalize splitAtFirst ':' (trim line) = parts
  rcases parts with ⟨name, _ | deps⟩
  · rfl
  · dsimp only
    split
    · rfl
    · simp only [map_bind]
      refine bind_congr fun r1 => ?_
      refine bind_congr fun r2 => ?_
      split
      · split <;> simp [Statement.flatten]
      · simp [Statement.flatten]

theorem flattenAppend (a b : List Statement) :
    Statement.flatten (a ++ b) = Statement.flatten a ++ Statement.flatten b := by
  induction a with
  | nil => rfl
  | cons s rest ih => cases s <;> simp [Statement.flatten, ih]

theorem keptLineForgets {β : Type} {fuel : Nat}
    (kept : ∀ raw, Prod.fst <$> statement fuel raw =
      (fun s => Statement.flatten s.toList) <$> Parse.statement fuel raw)
    {q : ReadM (List Statement × Trace)} {p : ReadM β} {g : β → List Statement}
    (rest : Prod.fst <$> q = g <$> p) :
    (Prod.fst <$> do
        let x ← readNoting none loopUse
        let y ← statement fuel x.1
        let z ← q
        pure (y.1 ++ z.1, x.2 ++ y.2 ++ z.2)) =
      (do
        let raw ← readLine none
        let s ← Parse.statement fuel raw
        let z ← p
        pure (Statement.flatten s.toList ++ g z)) := by
  simp only [map_bind, map_pure]
  rw [← readNotingForgets none loopUse, bind_map_left]
  refine bind_congr fun x => ?_
  rw [forgetBind (kept x.1) fun a => q >>= fun z => pure (a ++ z.1)]
  refine bind_congr fun s => ?_
  rw [forgetBind rest fun steps => pure (Statement.flatten s.toList ++ steps)]

theorem statementForgets (fuel : Nat) :
    (∀ raw, Prod.fst <$> statement fuel raw =
      (fun s => Statement.flatten s.toList) <$> Parse.statement fuel raw) ∧
    (∀ line, Prod.fst <$> arm fuel line =
      (fun x => Statement.flatten x.2.1 ++ Tail.flatten x.2.2) <$> Parse.arm fuel line) ∧
    (∀ start, Prod.fst <$> armBody fuel start =
      (fun x => Statement.flatten x.1 ++ Tail.flatten x.2) <$> Parse.armBody fuel start) ∧
    (∀ rest start, Prod.fst <$> elseArm fuel rest start = Statement.flatten <$> Parse.elseArm fuel rest start) ∧
    (∀ start, Prod.fst <$> elseBody fuel start = Statement.flatten <$> Parse.elseBody fuel start) := by
  induction fuel with
  | zero =>
    refine ⟨fun _ => ?_, fun _ => ?_, fun _ => ?_, fun _ _ => ?_, fun _ => ?_⟩ <;>
    · simp only [statement, Parse.statement, arm, Parse.arm, armBody, Parse.armBody, elseArm, Parse.elseArm,
        elseBody, Parse.elseBody]
      exact (mapThrow _ _).trans (mapThrow _ _).symm
  | succ fuel ih =>
    obtain ⟨statements, arms, bodies, elseArms, elseBodies⟩ := ih
    refine ⟨fun raw => ?_, fun line => ?_, fun start => ?_, fun rest start => ?_, fun start => ?_⟩
    · rw [statement]
      by_cases opens : opensConditional raw = true
      · rw [if_pos opens, statementOpens fuel opens, arms]
        simp [Statement.flatten]
      rw [if_neg opens]
      by_cases rule : headsRule raw = true
      · rw [if_pos rule, statementHeadsRule fuel rule, ← targetForgets]
        simp [targetFlat]
      · rw [if_neg rule]
        simp
    · rw [arm, Parse.arm]
      simp only [map_bind]
      refine bind_congr fun start => ?_
      generalize firstWordAndRest line = words
      rcases words with _ | ⟨a, _ | ⟨b, _ | ⟨c, rest⟩⟩⟩ <;> simp [bodies, fail, mapThrow]
    · rw [armBody, Parse.armBody]
      simp only [map_bind]
      refine bind_congr fun ended => ?_
      split
      · simp only [fail, throwBind, mapThrow]
      simp only [map_bind]
      refine bind_congr fun next => ?_
      generalize directive? (trim next) = d
      have line : (Prod.fst <$> do
            let x ← readNoting none loopUse
            let y ← statement fuel x.1
            let z ← armBody fuel start
            pure (y.1 ++ z.1, x.2 ++ y.2 ++ z.2)) =
          (fun x => Statement.flatten x.1 ++ x.2.flatten) <$> (do
            let raw ← readLine none
            let s ← Parse.statement fuel raw
            let z ← Parse.armBody fuel start
            pure (s.toList ++ z.1, z.2)) := by
        rw [keptLineForgets statements (bodies start)]
        simp [flattenAppend]
      cases d with
      | none => exact line
      | some d =>
        cases d with
        | orElse =>
          generalize Directive.orElse.argument (trim next) = rest
          simp only [map_bind]
          rw [← readNotingForgets (some (isInclude rest)) fun _ => elseUse rest, bind_map_left]
          refine bind_congr fun x => ?_
          generalize directive? rest = d
          rcases d with _ | ⟨_ | _ | _ | _ | _ | _⟩ <;> simp [arms, elseArms, Tail.flatten, Statement.flatten]
        | endif =>
          simp only [map_bind, map_pure]
          rw [← readNotingForgets none fun _ => Use.consumed none, bind_map_left]
          simp [Tail.flatten, Statement.flatten]
        | ifeq => exact line
        | ifneq => exact line
        | exportVar => exact line
        | unexportVar => exact line
    · rw [elseArm, Parse.elseArm]
      by_cases empty : (rest.isEmpty || startsWithHash rest) = true
      · simp [empty, elseBodies]
      · simp only [empty, Bool.false_eq_true, if_false, map_bind, map_pure]
        rw [forgetBind (statements rest) fun a => elseBody fuel start >>= fun y => pure (a ++ y.1)]
        refine bind_congr fun s => ?_
        rw [forgetBind (elseBodies start) fun more => pure (Statement.flatten s.toList ++ more)]
        simp [flattenAppend]
    · rw [elseBody, Parse.elseBody]
      simp only [map_bind]
      refine bind_congr fun ended => ?_
      split
      · simp only [fail, throwBind, mapThrow]
      simp only [map_bind]
      refine bind_congr fun next => ?_
      split
      · simp only [map_bind, map_pure]
        rw [← readNotingForgets none fun _ => Use.consumed none, bind_map_left]
        simp [Statement.flatten]
      · refine (keptLineForgets statements (elseBodies start)).trans ?_
        simp [flattenAppend]

theorem statementsForgets (fuel : Nat) :
    Prod.fst <$> statements fuel = Statement.flatten <$> Parse.statements fuel := by
  induction fuel with
  | zero => exact (mapThrow _ _).trans (mapThrow _ _).symm
  | succ fuel ih =>
    rw [statements, Parse.statements]
    simp only [map_bind]
    refine bind_congr fun ended => ?_
    split
    · simp [Statement.flatten]
    · refine (keptLineForgets (statementForgets fuel).1 ih).trans ?_
      simp [flattenAppend]

end Flat

end Maketree.Parse
