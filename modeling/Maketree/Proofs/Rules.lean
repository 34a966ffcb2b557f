import Mathlib
import Maketree.Proofs.Recipes
/-! Rules: a header cut at its first colon, and what the steps of its recipe can be and do. -/
namespace Maketree

def Statement.isStep : Statement → Bool
  | .comment _ | .exportVar _ _ | .unexportVar _ | .cargo _ _ _ | .command _ => true
  | _ => false

def Statement.setsVariable : Statement → Bool
  | .exportVar _ _ | .unexportVar _ => true
  | _ => false

def Fault.ofExport : Fault → Bool
  | .exportWithoutName _ | .exportWithoutAssignment => true
  | _ => false

end Maketree


namespace Maketree.Parse

open Text Journal LineStream

structure RuleHeader where
  name : String
  doubleColon : Bool
  deps : List String
  command : Option String
  deriving DecidableEq, Repr

def ruleHeader (line : String) : RuleHeader :=
  let after := (line.toList.dropWhile (· != ':')).tail
  let doubleColon := after.head? == some ':'
  let rest := if doubleColon then after.tail else after
  { name := trim (String.ofList (line.toList.takeWhile (· != ':')))
    doubleColon
    deps := words (String.ofList (rest.takeWhile (· != ';')))
    command := if ';' ∈ rest then some (String.ofList (rest.dropWhile (· != ';')).tail) else none }

example : ruleHeader "all :: a b;echo ;x" = ⟨"all", true, ["a", "b"], some "echo ;x"⟩ := by decide

theorem idxOfCut (sep : Char) : ∀ (cs : List Char) (i : Nat), cs.idxOf? sep = some i →
    cs.take i = cs.takeWhile (· != sep) ∧ cs.drop (i + 1) = (cs.dropWhile (· != sep)).tail
  | [], _, found => by simp at found
  | c :: cs, i, found => by
    rw [List.idxOf?_cons] at found
    by_cases here : c = sep
    · simp only [here, beq_self_eq_true, if_true, Option.some.injEq] at found
      subst found
      simp [here]
    · simp only [beq_iff_eq, here, if_false, Option.map_eq_some_iff] at found
      obtain ⟨j, found, rfl⟩ := found
      obtain ⟨before, after⟩ := idxOfCut sep cs j found
      simp [here, before, after]

theorem splitAtFirstCut (sep : Char) (s : String) :
    splitAtFirst sep s = (String.ofList (s.toList.takeWhile (· != sep)),
      if sep ∈ s.toList then some (String.ofList (s.toList.dropWhile (· != sep)).tail) else none) := by
  unfold splitAtFirst
  dsimp only
  split
  · rename_i i found
    obtain ⟨before, after⟩ := idxOfCut sep s.toList i found
    have present : sep ∈ s.toList := List.idxOf?_eq_none_iff.not_left.mp (by simp [found])
    rw [before, after, if_pos present]
  · rename_i missing
    have absent : sep ∉ s.toList := List.idxOf?_eq_none_iff.mp missing
    have kept : s.toList.takeWhile (· != sep) = s.toList :=
      List.takeWhile_eq_self_iff.mpr fun c found => by simpa using ne_of_mem_of_not_mem found absent
    rw [if_neg absent, kept, String.ofList_toList]

section

variable {stop : Halt → Prop}

theorem manifestPathRuns (loc : Option Location) (words : List String) (r : Reader) :
    Runs (manifestPath loc words) r (fun _ r' _ => r' = r) stop := by
  induction words with
  | nil => exact .ofPure rfl
  | cons w rest ih =>
    unfold manifestPath
    split
    · split
      · exact .ofPure rfl
      · exact .noteThen rfl (.ofPure rfl)
    split
    · exact .ofPure rfl
    · exact ih

theorem manifestDirectoryRuns (cwd path : String) (loc : Option Location) (r : Reader) :
    Runs (manifestDirectory cwd path loc) r (fun _ r' _ => r' = r) stop := by
  unfold manifestDirectory
  refine .getThen ?_
  dsimp only
  split
  · exact .noteThen rfl (.ofPure rfl)
  · exact .ofPure rfl

theorem cargoStepRuns (cwd line : String) (words : List String) (loc : Option Location) (r : Reader) :
    Runs (cargoStep cwd line words loc) r
      (fun s r' _ => s.isStep = true ∧ s.setsVariable = false ∧ r' = r) stop := by
  unfold cargoStep
  split
  · exact .noteThen rfl (.ofPure ⟨rfl, rfl, rfl⟩)
  · refine .bind (manifestPathRuns _ _ r) fun found r' _ same => ?_
    subst same
    split
    · exact .ofPure ⟨rfl, rfl, rfl⟩
    · exact .bind (manifestDirectoryRuns _ _ _ _) fun _ _ _ same => .ofPure ⟨rfl, rfl, same⟩

theorem changeDirectoryRuns (cwd dir : String) (loc : Option Location) (r : Reader) :
    Runs (changeDirectory cwd dir loc) r (fun _ r' _ => r' = r) stop := by
  unfold changeDirectory
  refine .getThen ?_
  split
  · exact .noteThen rfl (.ofPure rfl)
  · exact .noteThen rfl (.ofPure rfl)

theorem assignSets (raw value : String) (r : Reader) :
    Runs (assign raw value) r (fun name r' _ => name = (r.context.set raw value).1 ∧
      r' = { r with context := (r.context.set raw value).2 }) stop := by
  unfold Runs
  rw [assignRun]
  refine Lands.ofPure ?_
  dsimp only
  exact ⟨rfl, rfl⟩

theorem unassignSets (name : String) (r : Reader) :
    Runs (unassign name) r (fun _ r' _ => r' = { r with context := r.context.unset name }) stop := by
  unfold Runs
  rw [unassignRun]
  refine Lands.ofPure ?_
  dsimp only

theorem assignRuns (raw value : String) (r : Reader) :
    Runs (assign raw value) r (fun _ r' _ => r'.stream = r.stream) stop :=
  (assignSets raw value r).mono fun _ _ _ ⟨_, set⟩ => by rw [set]

theorem unassignRuns (name : String) (r : Reader) :
    Runs (unassign name) r (fun _ r' _ => r'.stream = r.stream) stop :=
  (unassignSets name r).mono fun _ _ _ set => by rw [set]

end

theorem exportDirectiveRuns (d : Directive) (line : String) (loc : Option Location) (r : Reader) :
    Runs (exportDirective d line loc) r
      (fun s r' _ => s.isStep = true ∧ s.setsVariable = true ∧ r'.stream = r.stream)
      (fun h => ∃ e, h = .error e ∧ e.fault.ofExport = true) := by
  unfold exportDirective
  dsimp only
  split
  · exact .ofFail _ _ ⟨_, rfl, rfl⟩
  split
  · exact .bind (unassignRuns _ r) fun _ _ _ same => .ofPure ⟨rfl, rfl, same⟩
  split
  · split
    · exact .ofFail _ _ ⟨_, rfl, rfl⟩
    · exact .bind (assignRuns _ _ r) fun _ _ _ same => .ofPure ⟨rfl, rfl, same⟩
  · exact .ofFail _ _ ⟨_, rfl, rfl⟩

theorem stepRuns (cwd raw : String) (loc : Option Location) (r : Reader) :
    Runs (step cwd raw loc) r
      (fun x r' _ => x.1.isStep = true ∧ (x.1.setsVariable = false → r'.context = r.context))
      (fun h => ∃ e, h = .error e ∧ e.fault.ofExport = true) := by
  unfold step
  dsimp only
  split
  · exact .ofPure ⟨rfl, fun _ => rfl⟩
  split
  · exact .bind (exportDirectiveRuns _ _ _ r) fun _ _ _ ⟨isStep, sets, _⟩ => .ofPure ⟨isStep, by simp [sets]⟩
  · exact .bind (exportDirectiveRuns _ _ _ r) fun _ _ _ ⟨isStep, sets, _⟩ => .ofPure ⟨isStep, by simp [sets]⟩
  split
  · exact .bind (cargoStepRuns _ _ _ _ r) fun _ _ _ ⟨isStep, _, same⟩ => .ofPure ⟨isStep, fun _ => by rw [same]⟩
  · exact .bind (changeDirectoryRuns _ _ _ r) fun _ _ _ same => .ofPure ⟨rfl, fun _ => by rw [same]⟩
  · exact .noteThen rfl (.ofPure ⟨rfl, fun _ => rfl⟩)
  · exact .ofPure ⟨rfl, fun _ => rfl⟩

theorem stepsOfRuns (cwd : String) (lines : List (String × Option Location)) (r : Reader) :
    Runs (stepsOf cwd lines) r
      (fun steps r' _ => (∀ s ∈ steps, s.isStep = true) ∧
        ((∀ s ∈ steps, s.setsVariable = false) → r'.context = r.context))
      (fun h => ∃ e, h = .error e ∧ e.fault.ofExport = true) := by
  induction lines generalizing cwd r with
  | nil => exact .ofPure ⟨by simp, fun _ => rfl⟩
  | cons line rest ih =>
    obtain ⟨text, loc⟩ := line
    rw [stepsOf]
    split
    · exact ih cwd r
    · refine .bind (stepRuns cwd text loc r) fun x r₁ _ stepped => ?_
      obtain ⟨s, cwd'⟩ := x
      obtain ⟨isStep, keeps⟩ := stepped
      refine .bind (ih cwd' r₁) fun more r₂ _ after => .ofPure ⟨?_, fun quiet => ?_⟩
      · simp only [List.forall_mem_cons]
        exact ⟨isStep, after.1⟩
      · simp only [List.forall_mem_cons] at quiet
        rw [after.2 quiet.2, keeps quiet.1]

def ruleOf (line : String) (loc : Location) (run : List (String × Location)) : ReadM Statement := do
  let h := ruleHeader line
  if h.name.isEmpty then fail .targetWithoutName (some loc)
  else
    let steps ← stepsOf (← get).context.rootDir
      (h.command.toList.map (·, some loc) ++ run.map fun x => (x.1, some x.2))
    pure (.target h.name h.deps loc.path h.doubleColon steps)

theorem ruleOfRuns (line : String) (loc : Location) (run : List (String × Location)) (r : Reader) :
    Runs (ruleOf line loc run) r
      (fun t r' _ => (ruleHeader line).name.isEmpty = false ∧ ∃ steps,
        t = .target (ruleHeader line).name (ruleHeader line).deps loc.path (ruleHeader line).doubleColon
          steps ∧
        (∀ s ∈ steps, s.isStep = true) ∧ ((∀ s ∈ steps, s.setsVariable = false) → r'.context = r.context))
      (fun h => ∃ e : MakeError, h = .error e ∧
        if (ruleHeader line).name.isEmpty then e = ⟨.targetWithoutName, some loc⟩ else e.fault.ofExport = true) := by
  unfold ruleOf
  dsimp only
  split
  · exact .ofFail _ _ ⟨_, rfl, by simp⟩
  · rename_i named
    refine .getThen (.bind ((stepsOfRuns _ _ r).stops fun h ⟨e, same, ofExport⟩ => ?_)
      fun steps r' _ ⟨isStep, keeps⟩ => .ofPure ⟨by simpa using named, steps, rfl, isStep, keeps⟩)
    exact ⟨e, same, by simpa [named] using ofExport⟩

theorem ruleHeaderColon {line : String} (header : isRuleHeader line = true) : ':' ∈ line.toList := by
  unfold isRuleHeader at header
  split at header
  · cases header
  · rename_i rest cut
    have found : ':' ∈ line.toList.dropWhile (· != ':') := by simp [cut]
    exact (List.dropWhile_suffix _).subset found
  · cases header

theorem targetOfHeader (fuel : Nat) (line : String) (colon : ':' ∈ (trim line).toList) (r : Reader)
    {loc : Location} (here : r.stream.loc = some loc) :
    (target fuel line).run r = (if (ruleHeader (trim line)).name.isEmpty then fail .targetWithoutName (some loc)
      else do
        let (first, cwd) ← match (ruleHeader (trim line)).command with
          | some c => if isBlankText c then pure ([], r.context.rootDir) else do
              let (s, cwd) ← step r.context.rootDir c (some loc)
              pure ([s], cwd)
          | none => pure ([], r.context.rootDir)
        let rest ← recipeSteps fuel cwd
        pure (Statement.target (ruleHeader (trim line)).name (ruleHeader (trim line)).deps loc.path
          (ruleHeader (trim line)).doubleColon (first ++ rest))).run r := by
  rw [target, placeRun, here, splitAtFirstCut, if_pos colon]
  simp only [String.toList_ofList, ruleHeader]
  generalize ((trim line).toList.dropWhile (· != ':')).tail = after
  -- the double colon is cut off before the prerequisites are split at `;`
  cases double : after.head? == some ':'
  · simp only [Bool.false_eq_true, if_false, splitAtFirstCut, String.toList_ofList]
    split
    · rfl
    · exact (getRun _ r).trans (getRun _ r)
  · simp only [if_true, splitAtFirstCut, String.toList_ofList]
    split
    · rfl
    · exact (getRun _ r).trans (getRun _ r)

theorem targetReads (fuel : Nat) (line : String) (r : Reader) {loc : Location}
    (header : isRuleHeader (trim line) = true) (here : r.stream.loc = some loc) (ahead : r.stream.Ahead)
    (fine : ¬Faulty r.stream.frames) (enough : (recipeRun r.stream).length < fuel) :
    ∃ res, Gives ((target fuel line).run r) res ∧
      Gives ((ruleOf (trim line) loc (recipeRun r.stream)).run r) (onStream r.stream res) ∧
      ∀ t r', res = .ok (t, r') → PastRecipe r.stream r'.stream := by
  rw [targetOfHeader fuel line (ruleHeaderColon header) r here]
  unfold ruleOf
  dsimp only
  split
  · exact ⟨_, givesThrow _, givesThrow _, by simp⟩
  rw [getRun]
  generalize (ruleHeader (trim line)).name = name
  generalize (ruleHeader (trim line)).deps = deps
  generalize (ruleHeader (trim line)).doubleColon = doubleColon
  generalize r.context.rootDir = root
  have recipe : ∀ (cwd : String) (r₁ : Reader) (front : List Statement), r₁.stream = r.stream →
      ∃ res, Gives ((recipeSteps fuel cwd >>= fun rest =>
          pure (Statement.target name deps loc.path doubleColon (front ++ rest))).run r₁) res ∧
        Gives ((stepsOf cwd ((recipeRun r.stream).map fun x => (x.1, some x.2)) >>= fun steps =>
          pure (Statement.target name deps loc.path doubleColon (front ++ steps))).run r₁)
          (onStream r.stream res) ∧
        ∀ t r', res = .ok (t, r') → PastRecipe r.stream r'.stream := by
    intro cwd r₁ front same
    obtain ⟨res, gives, spec, post⟩ :=
      recipeStepsReadRun fuel cwd r₁ (same ▸ ahead) (same ▸ fine) (same ▸ enough)
    refine ⟨res.map fun x => (_, x.2), givesThen gives, ?_, ?_⟩
    · rw [← same]
      rcases res with h | ⟨rest, r₂⟩ <;> exact givesThen spec
    · intro t r' ok
      rcases res with h | ⟨rest, r₂⟩
      · cases ok
      · simp only [Except.map, Except.ok.injEq, Prod.mk.injEq] at ok
        obtain ⟨-, rfl⟩ := ok
        rw [← same]
        exact post rest r₂ rfl
  cases command : (ruleHeader (trim line)).command with
  | none =>
    simpa using recipe root r [] rfl
  | some c =>
    by_cases blank : isBlankText c = true
    · simpa [stepsOf, blank] using recipe root r [] rfl
    · -- the command after the `;` is a step of its own, read before the recipe from the root
      simp only [blank, Bool.false_eq_true, if_false, Option.toList_some, List.map_cons, List.map_nil,
        List.singleton_append, stepsOf, bind_assoc, pure_bind]
      obtain ⟨resS, logsS, -, sameS⟩ := Keeps.closed.step root c (some loc) r
      rcases resS with h | ⟨⟨s, cwd⟩, r₁⟩
      · refine ⟨.error h, ?_, ?_, by simp⟩
        · rw [StateT.run_bind]
          exact givesBindError logsS.gives
        · rw [StateT.run_bind]
          exact givesBindError logsS.gives
      · obtain ⟨res, gives, spec, post⟩ := recipe cwd r₁ [s] (sameS _ _ rfl)
        refine ⟨res, ?_, ?_, post⟩
        · rw [StateT.run_bind]
          exact givesBind logsS.gives gives
        · rw [StateT.run_bind]
          simp only [List.singleton_append] at spec
          exact givesBind logsS.gives spec

theorem ruleHeaderReads (fuel : Nat) (raw : String) (r : Reader) {loc : Location}
    (rule : construct raw = .rule) (here : r.stream.loc = some loc) (ahead : r.stream.Ahead)
    (fine : ¬Faulty r.stream.frames) (enough : (recipeRun r.stream).length < fuel) :
    ∃ res, Gives ((statement (fuel + 1) raw).run r) (res.map fun x => (some x.1, x.2)) ∧
      Gives ((ruleOf (trim raw) loc (recipeRun r.stream)).run r) (onStream r.stream res) ∧
      (∀ halt, res = .error halt → ∃ e : MakeError, halt = .error e ∧
        if (ruleHeader (trim raw)).name.isEmpty then e = ⟨.targetWithoutName, some loc⟩
        else e.fault.ofExport = true) ∧
      ∀ t r', res = .ok (t, r') → (ruleHeader (trim raw)).name.isEmpty = false ∧
        (∃ steps, t = .target (ruleHeader (trim raw)).name (ruleHeader (trim raw)).deps loc.path
            (ruleHeader (trim raw)).doubleColon steps ∧
          (∀ s ∈ steps, s.isStep = true) ∧
          ((∀ s ∈ steps, s.setsVariable = false) → r'.context = r.context)) ∧
        r'.stream.upcoming = r.stream.upcoming.drop (recipeRun r.stream).length ∧
        r'.stream.Ahead ∧ ¬Faulty r'.stream.frames ∧ r'.stream.files = r.stream.files := by
  have header : isRuleHeader (trim (trim raw)) = true := by
    have heads := (constructRule raw).mp rule
    simp only [headsRule, Bool.and_eq_true] at heads
    simpa using heads.2
  obtain ⟨res, gives, spec, post⟩ := targetReads fuel (trim raw) r header here ahead fine enough
  simp only [trimTrim] at spec
  obtain ⟨ruled, _, logged, holds, stops⟩ := ruleOfRuns (trim raw) loc (recipeRun r.stream) r
  have same : onStream r.stream res = ruled := givesUnique spec logged.gives
  refine ⟨res, ?_, spec, fun halt failed => stops halt (by rw [← same, failed]; rfl), fun t r' ok => ?_⟩
  · rw [statementDispatch, rule]
    exact givesThen gives
  · obtain ⟨named, steps, shape, isStep, keeps⟩ := holds (t, { r' with stream := r.stream })
      (by rw [← same, ok]; rfl)
    obtain ⟨ahead', fine', files', upcoming'⟩ := post t r' ok
    exact ⟨named, ⟨steps, shape, isStep, keeps⟩, upcoming', ahead', fine', files'⟩

def afterRuleHeader : Reader :=
  ⟨{ files := ⟨"/w", ["/w"], []⟩, workDir := "/w", frames := [⟨"Makefile", 2, ["\tcd sub", "next"], none⟩],
     eof := false, loc := some ⟨"Makefile", 1⟩, next := "\techo b", nextLoc := some ⟨"Makefile", 2⟩ },
   ⟨"/w", [], [], []⟩⟩

set_option maxRecDepth 8192 in
theorem afterRuleHeaderReadsRecipe :
    construct "all: dep ; echo a" = .rule ∧ afterRuleHeader.stream.Ahead ∧
      ¬Faulty afterRuleHeader.stream.frames ∧
      ∃ res : Except Halt (Statement × Reader),
        Gives ((statement 4 "all: dep ; echo a").run afterRuleHeader) (res.map fun x => (some x.1, x.2)) ∧
        ∀ t r', res = .ok (t, r') → (∃ steps, t = .target "all" ["dep"] "Makefile" false steps) ∧
          r'.stream.upcoming = [("next", ⟨"Makefile", 4⟩)] := by
  have rule : construct "all: dep ; echo a" = .rule := by decide
  have ahead : afterRuleHeader.stream.Ahead :=
    ⟨[("Makefile", [("\techo b", 2), ("\tcd sub", 3), ("next", 4)])], .ahead rfl rfl rfl rfl (by decide)⟩
  have fine : ¬Faulty afterRuleHeader.stream.frames := by simp [Faulty, afterRuleHeader]
  obtain ⟨res, gives, -, -, read⟩ := ruleHeaderReads 3 "all: dep ; echo a" afterRuleHeader rule rfl ahead fine
    (by decide)
  refine ⟨rule, ahead, fine, res, gives, fun t r' ok => ?_⟩
  have header : ruleHeader (trim "all: dep ; echo a") = ⟨"all", false, ["dep"], some " echo a"⟩ := by
    decide
  obtain ⟨-, ⟨steps, shape, -⟩, moved, -⟩ := read t r' ok
  rw [header] at shape
  exact ⟨⟨steps, shape⟩, by rw [moved]; decide⟩

end Maketree.Parse
