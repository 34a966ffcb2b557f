import Mathlib
import Maketree.Proofs.MirrorSteps
/-! The statement of a line read on both readers, as the mirror's loop reads it. -/
namespace Maketree

open Journal Expansion Text
open LineStream (Tracks Faulty ReadAhead upcoming upcomingOf includeOpens)

namespace Parse

theorem readerOfStream {r₁ r : Reader} (same : r₁.stream = r.stream) : r₁ = { r with context := r₁.context } := by
  obtain ⟨stream, context⟩ := r₁
  simp only at same
  subst same
  rfl

theorem plainStatementFlat (fuel : Nat) {u : String} (notOpen : opensConditional u = false)
    (notRule : headsRule u = false) (plain : isInclude u = false) (r : Reader) :
    Runs (statement (fuel + 1) u) r (fun s _ _ => Statement.flatten s.toList = s.toList) ⊤ := by
  rw [statementDispatch]
  rcases found : construct u with _ | d | _ | _ | _ | keyword | _ | _
  · exact .ofPure (by simp [Statement.flatten])
  · refine .placeThen (.bind (((exportDirectiveRuns d _ _ r).mono fun _ _ _ h => h.1).stops fun _ _ => trivial)
      fun s _ _ isStep => .ofPure ?_)
    cases s <;> simp_all [Statement.isStep, Statement.flatten]
  · exact .bind (assignRuns _ _ r) fun _ _ _ _ => .ofPure rfl
  · exact absurd ((constructInclude u).mp found) (by simp [plain])
  · exact absurd (constructConditional found) (by simp [notOpen])
  · exact .placeThen (.ofFail _ _ trivial)
  · exact absurd ((constructRule u).mp found) (by simp [notRule])
  · exact .placeThen (.noteThen rfl (.ofPure (by simp [Statement.flatten])))

theorem includeDirectiveGives {line path : String} {r : Reader} {s' : LineStream} {events : List Notice}
    (second : (Text.words line)[1]? = some path) (opens : Logs (r.stream.includeFile path) (.ok s') events) :
    Gives ((includeDirective line).run r) (.ok (.includeFile path, { r with stream := s' })) := by
  have run : Runs (openInclude path >>= fun _ => pure (Statement.includeFile path)) r
      (fun s r₁ _ => s = .includeFile path ∧ r₁ = { r with stream := s' }) fun _ => False := by
    refine ⟨.ok (.includeFile path, { r with stream := s' }), events, ?_,
      fun _ same => by cases same; exact ⟨rfl, rfl⟩, by simp⟩
    rw [StateT.run_bind, openIncludeRun, bind_assoc]
    exact logsThen opens (logsPure _)
  have reads : Runs (includeDirective line) r
      (fun s r₁ _ => s = .includeFile path ∧ r₁ = { r with stream := s' }) fun _ => False := by
    unfold includeDirective
    split
    · rename_i p extra found
      obtain rfl : p = path := by simpa [found] using second
      split
      · exact .placeThen (.noteThen rfl run)
      · exact run
    · rename_i none
      obtain ⟨a, extra, found⟩ : ∃ a extra, Text.words line = a :: path :: extra := by
        rcases words : Text.words line with _ | ⟨a, _ | ⟨b, extra⟩⟩ <;> simp_all
      exact absurd found (none a path extra)
  obtain ⟨res, _, logs, holds, stops⟩ := reads
  rcases res with h | ⟨s, r₁⟩
  · exact absurd (stops h rfl) id
  · obtain ⟨rfl, rfl⟩ := holds (s, r₁) rfl
    exact logs.gives

def headerStep (command : Option String) (root : String) (loc : Option Location) :
    ReadM (List Statement × String) :=
  match command with
  | some c => if isBlankText c then pure ([], root) else do
      let (s, cwd) ← step root c loc
      pure ([s], cwd)
  | none => pure ([], root)

theorem Alike.headerStep (command : Option String) (root : String) (loc loc' : Option Location) :
    Alike (headerStep command root loc) (headerStep command root loc') := by
  unfold Parse.headerStep
  split
  · split
    · exact Alike.ofPure _
    · exact Alike.bind (Alike.step _ _ _ _) fun _ => Alike.ofPure _
  · exact Alike.ofPure _

theorem targetRun (fuel : Nat) (line : String) (colon : ':' ∈ (trim line).toList) (r : Reader) {loc : Location}
    (here : r.stream.loc = some loc) :
    (target fuel line).run r = (if (ruleHeader (trim line)).name.isEmpty then fail .targetWithoutName (some loc)
      else headerStep (ruleHeader (trim line)).command r.context.rootDir (some loc) >>= fun x =>
        recipeSteps fuel x.2 >>= fun rest => pure (Statement.target (ruleHeader (trim line)).name
          (ruleHeader (trim line)).deps loc.path (ruleHeader (trim line)).doubleColon (x.1 ++ rest))).run r := by
  rw [targetOfHeader fuel line colon r here]
  split
  · rfl
  · generalize (ruleHeader (trim line)).command = command
    cases command with
    | none => rfl
    | some c =>
      by_cases blank : isBlankText c = true
      · simp only [headerStep, blank, if_true]
      · simp only [headerStep, blank, Bool.false_eq_true, if_false, bind_assoc]

theorem flatTargetRun (fuel : Nat) (line : String) (colon : ':' ∈ (trim line).toList) (r : Reader) {loc : Location}
    (here : r.stream.loc = some loc) :
    (Flat.target fuel line).run r = (if (ruleHeader (trim line)).name.isEmpty then fail .targetWithoutName (some loc)
      else headerStep (ruleHeader (trim line)).command r.context.rootDir (some loc) >>= fun x =>
        Flat.recipeSteps fuel x.2 >>= fun y => pure (Statement.target (ruleHeader (trim line)).name
          (ruleHeader (trim line)).deps loc.path (ruleHeader (trim line)).doubleColon (x.1 ++ y.1), y.2)).run r := by
  rw [Flat.target, placeRun, here, splitAtFirstCut, if_pos colon]
  simp only [String.toList_ofList, ruleHeader]
  generalize ((trim line).toList.dropWhile (· != ':')).tail = after
  cases double : after.head? == some ':' <;>
    simp only [Bool.false_eq_true, if_false, if_true, splitAtFirstCut, String.toList_ofList] <;>
    split
  -- a header without a name fails on both sides; else the step after the `;` is the header step
  all_goals first
    | rfl
    | rw [getRun, getRun]
      split
      · rename_i c found
        rw [found]
        by_cases blank : isBlankText c = true
        · simp only [headerStep, blank, if_true]
        · simp only [headerStep, blank, Bool.false_eq_true, if_false, bind_assoc, pure_bind]
      · rename_i found
        rw [found]
        rfl

theorem upcomingLength {s : LineStream} (ahead : s.Ahead) (more : s.eof = false) :
    s.upcoming.length = (lines (s.frames.map Frame.view)).length + 1 := by
  obtain ⟨pending, tracks⟩ := ahead
  cases tracks with
  | ended _ eof _ => simp [eof] at more
  | ahead first eof line lineLoc frames =>
    rw [upcomingOf (.ahead first eof line lineLoc frames), linesNext first, frames]
    rfl

namespace Mirror

variable {M : Mirror} {past : Trace} {before : List String} {r r' : Reader}

theorem Agree.twin (valid : M.Valid) (agree : M.Agree r r') : Twin r r' :=
  ⟨agree.context, by rw [agree.files, agree.files', valid.drops.cwd],
    by rw [agree.files, agree.files', valid.drops.directories]⟩

theorem Aligned.withContext {pending pending' : Pending} (aligned : M.Aligned past before r r' pending pending')
    {r₁ : Reader} (same : r₁.stream = r.stream) :
    M.Aligned past before r₁ { r' with context := r₁.context } pending pending' :=
  ⟨⟨rfl, by rw [same]; exact aligned.agree.files, aligned.agree.files', by rw [same]; exact aligned.agree.workDir,
    aligned.agree.fine⟩, by rw [same]; exact aligned.tracks, aligned.tracks', aligned.same, aligned.fresh⟩

theorem plainFollows (valid : M.Valid) (fuel : Nat) {u : String} (notOpen : opensConditional u = false)
    (notRule : headsRule u = false) (plain : isInclude u = false) (r : Reader) :
    Runs (Flat.statement (fuel + 1) u) r (StatementFollows M past before u r) ⊤ := by
  rw [Flat.statement, if_neg (by simp [notOpen]), if_neg (by simp [notRule])]
  refine ((Runs.ofKeeps (statementKeeps fuel notOpen notRule plain)).withGives.and
    (plainStatementFlat fuel notOpen notRule plain r)).bind fun s r₁ events both => Runs.ofPure ?_
  obtain ⟨⟨gives, same, noEvents⟩, flat⟩ := both
  subst noEvents
  intro r'₀ r' read after _ later _ _ _
  rw [After, if_neg (by simp [plain])] at after
  obtain ⟨pending, pending', aligned⟩ := after
  have mirror : ∀ n, 1 ≤ n → Gives ((statement n u).run r') (.ok (s, { r' with context := r₁.context })) := by
    intro n big
    obtain ⟨m, rfl⟩ : ∃ m, n = m + 1 := ⟨n - 1, by omega⟩
    have alike : Alike (statement (fuel + 1) u) (statement (m + 1) u) := Alike.statement (fun h => by simp [(constructInclude u).mp h] at plain)
      (fun h => by simp [constructConditional h] at notOpen) (fun h => by simp [(constructRule u).mp h] at notRule)
      fuel m
    exact alike.2 r r' (aligned.agree.twin valid) s r₁.context (readerOfStream same ▸ gives)
  have budget := read.budget
  rw [if_neg (by simp [plain])] at budget
  refine ⟨{ r' with context := r₁.context }, 2, ?_, ⟨pending, pending', by simpa [openedPaths] using aligned.withContext same⟩, ?_⟩
  · simpa [flat] using Absorbs.line read.more read.reads mirror
  · simp only [openedPaths, List.filterMap_nil, List.append_nil]
    have kept : M.budget { r' with context := r₁.context } before = M.budget r' before := rfl
    omega

theorem budgetOpens {r₁' : Reader} {p : String} {bytes' : List UInt8} {k : Nat} (within : before ++ [p] <+: M.opened)
    (read : M.files'.read p = .ok bytes')
    (opened : r₁'.stream.upcoming.length = (LogicalLine.expand 0 (Source.ofBytes bytes').lines).length + k)
    (waiting : r'.stream.upcoming.length = k + 1) :
    M.budget r₁' (before ++ [p]) + 1 = M.budget r' before := by
  obtain ⟨rest, split⟩ := within
  have drop₀ : M.opened.drop before.length = p :: rest := by rw [← split]; simp
  have drop₁ : M.opened.drop (before ++ [p]).length = rest := by rw [← split]; simp
  have size : M.linesOn p = (LogicalLine.expand 0 (Source.ofBytes bytes').lines).length := by
    simp [Mirror.linesOn, read]
  simp only [Mirror.budget, drop₀, drop₁, List.map_cons, List.sum_cons, size, opened, waiting]
  omega

theorem newPathOf (valid : M.Valid) {p : String} (within : before ++ [p] <+: M.opened) : p ∉ M.root :: before := by
  have nodup := valid.nodup
  obtain ⟨rest, split⟩ := within
  rw [← split] at nodup
  simp only [List.nodup_cons, List.nodup_append, List.mem_append, List.mem_singleton] at nodup
  simp only [List.mem_cons, not_or]
  refine ⟨fun same => nodup.1 (.inl (.inr same.symm)), fun old => ?_⟩
  exact nodup.2.1.2.2 p old p (by simp) rfl

theorem includeFollows (valid : M.Valid) (fuel : Nat) {u : String} (included : isInclude u = true) (r : Reader) :
    Runs (Flat.statement (fuel + 1) u) r (StatementFollows M past before u r) ⊤ := by
  have notOpen : opensConditional u = false := by
    cases opens : opensConditional u
    · rfl
    · simp [opensNotInclude opens] at included
  have notRule : headsRule u = false := by simp [headsRule, included]
  rw [Flat.statement, if_neg (by simp [notOpen]), if_neg (by simp [notRule]), statementIncludes fuel included,
    bind_assoc]
  refine (includeDirectiveRuns _ r).bind
    fun node r₁ events opening => ?_
  obtain ⟨path, second, same, bytes, closed, read, ahead, logged, kept⟩ := opening
  subst same logged
  simp only [pure_bind]
  refine Runs.ofPure ?_
  intro r'₀ r' lineRead after _ later _ _ within
  rw [After, if_pos included] at after
  obtain ⟨waiting, ahead', more'⟩ := after
  have opened : openedPaths (.openedFile (Path.normalJoin r.stream.workDir path) :: closed.map Notice.closedFile ++ []) =
      [Path.normalJoin r.stream.workDir path] := by
    simp [openedPaths, Notice.openedPath?]
  rw [opened] at within ⊢
  -- the mirror's file at the same path holds what stands in place of the input's
  have drops := valid.drops.edited (Path.normalJoin r.stream.workDir path) (within.subset (by simp))
  rw [← waiting.agree.files, read] at drops
  rcases read' : M.files'.read (Path.normalJoin r.stream.workDir path) with why | bytes'
  · simp [read', Trace.drops] at drops
  rw [read'] at drops
  have fine := (dropsOk drops).1
  have samePath : Path.normalJoin r'.stream.workDir path = Path.normalJoin r.stream.workDir path := by
    rw [waiting.agree.workDir]
  obtain ⟨s', closed', opens', logs'⟩ :=
    includeOpens (s := r'.stream) (by rw [samePath, waiting.agree.files']; exact read')
  have notFaulty : ¬Faulty (Frame.ofSource (Path.normalJoin r'.stream.workDir path) (Source.ofBytes bytes') ::
      r'.stream.frames) := by
    rintro ⟨f, mem, fault⟩
    rcases List.mem_cons.mp mem with rfl | old
    · exact fault fine
    · exact waiting.agree.fine ⟨f, old, fault⟩
  have mirror : ∀ n, 1 ≤ n →
      Gives ((statement n u).run r') (.ok (some (.includeFile path), { r' with stream := s' })) := by
    intro n big
    obtain ⟨m, rfl⟩ : ∃ m, n = m + 1 := ⟨n - 1, by omega⟩
    rw [statementIncludes m included, StateT.run_bind]
    exact givesBind (includeDirectiveGives second (logs'.logs notFaulty)) (givesPure _)
  have agree : M.Agree r₁ { r' with stream := s' } := waiting.agree.move kept ahead.files ahead.workDir rfl
    opens'.files opens'.workDir (opens'.sound notFaulty)
  rw [samePath] at opens'
  have aligned := waiting.push (newPathOf valid within) drops ahead opens' agree
  have upcoming : ({ r' with stream := s' } : Reader).stream.upcoming.length =
      (LogicalLine.expand 0 (Source.ofBytes bytes').lines).length + (lines (r'.stream.frames.map Frame.view)).length := by
    rw [upcomingOf aligned.tracks', linesCons]
    simp
  have budget := budgetOpens within read' upcoming (upcomingLength ahead' more')
  have budget₀ := lineRead.budget
  rw [if_pos included, Nat.add_zero] at budget₀
  refine ⟨{ r' with stream := s' }, 2, ?_, ⟨_, _, by simpa using aligned⟩, by omega⟩
  simpa [Statement.flatten] using Absorbs.line lineRead.more lineRead.reads mirror

theorem Aligned.mirrorPlain (valid : M.Valid) (plain : ∀ m ∈ M.T, m.Plain) {pending pending' : Pending}
    {later : Trace} (aligned : M.Aligned past before r r' pending pending') (split : M.T = past ++ later)
    (cont : Continues later r.stream.upcoming) (first : startsWithTab r.stream.next = false) :
    startsWithTab r'.stream.next = false := by
  have fresh := aligned.fresh
  rw [← upcomingOf aligned.tracks] at fresh
  have heads := standInsPlain valid.tabs plain r.stream.upcoming past later split cont fresh.nodup fresh.unmet ?_
  · rw [← aligned.upcomingStands] at heads
    have tracks' := aligned.tracks'
    cases tracks' with
    | ended _ _ empty => simp [empty, startsWithTab]
    | ahead first' eof line lineLoc frames =>
      rw [upcomingOf (.ahead first' eof line lineLoc frames), linesNext first'] at heads
      simpa [line] using heads
  · intro y head
    have tracks := aligned.tracks
    cases tracks with
    | ended _ eof _ => simp [upcoming, eof] at head
    | ahead first' eof line lineLoc frames =>
      rw [upcomingOf (.ahead first' eof line lineLoc frames), linesNext first'] at head
      simp only [List.head?_cons, Option.mem_def, Option.some.injEq] at head
      rw [← head, ← line]
      exact first

def RecipeFollows (M : Mirror) (past : Trace) (before : List String) (cwd : String) (r : Reader)
    (x : List Statement × Trace) (r₂ : Reader) (events : List Notice) : Prop :=
  ∀ r', M.Ready past before r r' → ∀ later, M.T = past ++ x.2 ++ later → Continues later r₂.stream.upcoming →
    openedPaths events = [] ∧ ∃ r₂' k, (∀ n, k < n → Gives ((recipeSteps n cwd).run r') (.ok (x.1, r₂'))) ∧
      M.Ready (past ++ x.2) before r₂ r₂' ∧ k + M.budget r₂' before ≤ M.budget r' before

theorem recipeFollows (valid : M.Valid) (plain : ∀ m ∈ M.T, m.Plain) (fuel : Nat) :
    ∀ (past : Trace) (cwd : String) (r : Reader),
      Runs (Flat.recipeSteps fuel cwd) r (RecipeFollows M past before cwd r) ⊤ := by
  induction fuel with
  | zero => exact fun _ _ _ => Runs.ofThrow trivial
  | succ fuel ih =>
    intro past cwd r
    rw [Flat.recipeSteps]
    refine Runs.peekThen ?_
    split
    · rename_i tab
      refine (readNotingRuns (some false) (fun _ => .kept) r).bind
        fun a r₁ events noting => ?_
      obtain ⟨noted, context, closed, logged, moved⟩ := noting
      subst noted logged
      rw [if_neg (by simp)] at moved
      have reads : ∀ r', M.Ready past before r r' → ∀ later, M.T = past ++
          ⟨r.stream.next, r.stream.nextLoc, false, .kept⟩ :: later →
          ∃ s' loc', startsWithTab r'.stream.next = true ∧ Gives (r'.stream.readLine (some false)) (.ok (r.stream.next, s')) ∧
            s'.loc = some loc' ∧ M.Ready (past ++ [⟨r.stream.next, r.stream.nextLoc, false, .kept⟩]) before r₁
              { r' with stream := s' } ∧ M.budget r' before = M.budget { r' with stream := s' } before + 1 := by
        intro r' ready later split
        obtain ⟨pending, pending', aligned⟩ := ready
        have more : r.stream.eof = false := by
          have tracks := aligned.tracks
          cases tracks with
          | ended _ _ empty => simp [empty] at tab
          | ahead _ eof => exact eof
        obtain ⟨s', -, next', gives, ready₁, ⟨_, loc', _, here, _⟩, budget⟩ :=
          aligned.readOn (d := some false) more split rfl rfl rfl context moved
        exact ⟨s', loc', by rw [next']; exact tab, gives, here, ready₁, budget⟩
      dsimp only
      split
      · rename_i blank
        refine (ih (past ++ [⟨r.stream.next, r.stream.nextLoc, false, .kept⟩]) cwd r₁).bind
          fun b r₂ more follows => Runs.ofPure ?_
        intro r' ready later split cont
        obtain ⟨s', loc', tab', gives, here, ready₁, budget⟩ := reads r' ready (b.2 ++ later) (by rw [split]; simp)
        obtain ⟨quiet, r₂', k, mirror, ready₂, budget₂⟩ := follows _ ready₁ later (by rw [split]; simp) cont
        refine ⟨by simpa [openedPathsAppend] using quiet, r₂', k + 1, fun n big => ?_, by simpa using ready₂, by omega⟩
        obtain ⟨n, rfl⟩ : ∃ m, n = m + 1 := ⟨n - 1, by omega⟩
        exact recipeStepsReads n cwd tab' gives here (by simpa [blank] using mirror n (by omega))
      · rename_i blank
        refine Runs.placeThen ((Runs.ofKeeps (Keeps.closed.step _ _ _)).withGives.bind
          fun x r₃ events' stepping =>
            (ih (past ++ [⟨r.stream.next, r.stream.nextLoc, false, .kept⟩]) x.2 r₃).bind
              fun b r₄ more follows => Runs.ofPure ?_)
        obtain ⟨st, cwd'⟩ := x
        obtain ⟨stepped, same, quiet⟩ := stepping
        subst quiet
        intro r' ready later split cont
        obtain ⟨s', loc', tab', gives, here, ⟨pending, pending', aligned₁⟩, budget⟩ :=
          reads r' ready (b.2 ++ later) (by rw [split]; simp)
        have mirrorStep : Gives ((step cwd r.stream.next (some loc')).run { r' with stream := s' })
            (.ok ((st, cwd'), { r' with stream := s', context := r₃.context })) :=
          (Alike.step cwd r.stream.next r₁.stream.loc (some loc')).2 r₁ _ (aligned₁.agree.twin valid) _ r₃.context
            (readerOfStream same ▸ stepped)
        obtain ⟨quiet, r₄', k, mirror, ready₄, budget₄⟩ :=
          follows _ ⟨pending, pending', aligned₁.withContext same⟩ later (by rw [split]; simp) cont
        refine ⟨by simpa [openedPathsAppend] using quiet, r₄', k + 1, fun n big => ?_, by simpa using ready₄, ?_⟩
        · obtain ⟨n, rfl⟩ : ∃ m, n = m + 1 := ⟨n - 1, by omega⟩
          refine recipeStepsReads n cwd tab' gives here ?_
          rw [if_neg blank, StateT.run_bind]
          refine givesBind mirrorStep ?_
          rw [StateT.run_bind]
          exact givesBind (mirror n (by omega)) (givesPure _)
        · -- the budget reads the stream alone
          simp only [Mirror.budget] at budget budget₄ ⊢
          omega
    · rename_i notTab
      refine Runs.ofPure fun r' ready later split cont => ⟨by simp [openedPaths], r', 0, fun n big => ?_,
        by simpa using ready, by simp⟩
      obtain ⟨pending, pending', aligned⟩ := ready
      obtain ⟨n, rfl⟩ : ∃ m, n = m + 1 := ⟨n - 1, by omega⟩
      refine recipeStepsStop n cwd ?_
      rw [aligned.mirrorPlain valid plain (by simpa using split) cont (by simpa [startsWithTab] using notTab)]
      simp

def TargetFollows (M : Mirror) (past : Trace) (before : List String) (line : String) (r : Reader)
    (x : Statement × Trace) (r₂ : Reader) (events : List Notice) : Prop :=
  ∀ r', M.Ready past before r r' → SamePlace r r' → ∀ later, M.T = past ++ x.2 ++ later →
    Continues later r₂.stream.upcoming → openedPaths events = [] ∧ ∃ r₂' k,
      (∀ n, k < n → Gives ((target n line).run r') (.ok (x.1, r₂'))) ∧ M.Ready (past ++ x.2) before r₂ r₂' ∧
      k + M.budget r₂' before ≤ M.budget r' before

theorem targetFollows (valid : M.Valid) (plain : ∀ m ∈ M.T, m.Plain) (fuel : Nat) (line : String)
    (header : isRuleHeader (trim line) = true) (r : Reader) :
    Runs (Flat.target fuel line) r (TargetFollows M past before line r) ⊤ := by
  rcases here : r.stream.loc with _ | loc
  · -- a reader with no location is at the same place as none
    refine (targetInOrder fuel line r).mono fun _ _ _ _ r' _ place => ?_
    obtain ⟨_, _, at_, _⟩ := place
    simp [here] at at_
  refine Runs.ofRun (flatTargetRun fuel line (ruleHeaderColon header) r here) ?_
  split
  · exact Runs.ofFail _ _ trivial
  rename_i named
  refine (Runs.ofKeeps (Alike.headerStep _ _ (some loc) (some loc)).1).withGives.bind
    fun x r₁ events stepped => ?_
  obtain ⟨gives, same, quiet⟩ := stepped
  subst quiet
  refine (@recipeFollows M before valid plain fuel past x.2 r₁).bind fun y r₂ more follows => Runs.ofPure ?_
  intro r' ready place later split cont
  obtain ⟨pending, pending', aligned⟩ := ready
  obtain ⟨loc₀, loc', at_, at', samePath⟩ := place
  rw [here, Option.some.injEq] at at_
  subst at_
  have mirrorHead : Gives ((headerStep (ruleHeader (trim line)).command r'.context.rootDir (some loc')).run r')
      (.ok (x, { r' with context := r₁.context })) := by
    rw [aligned.agree.context]
    exact (Alike.headerStep _ _ (some loc) (some loc')).2 r r' (aligned.agree.twin valid) x r₁.context
      (readerOfStream same ▸ gives)
  obtain ⟨quiet, r₂', k, mirror, ready₂, budget₂⟩ :=
    follows _ ⟨pending, pending', aligned.withContext same⟩ later split cont
  refine ⟨by simpa using quiet, r₂', k, fun n big => ?_, ready₂, budget₂⟩
  rw [targetRun n line (ruleHeaderColon header) r' at', if_neg named, samePath, StateT.run_bind]
  refine givesBind mirrorHead ?_
  rw [StateT.run_bind]
  exact givesBind (mirror n big) (givesPure _)

theorem ruleFollows (valid : M.Valid) (plain : ∀ m ∈ M.T, m.Plain) (fuel : Nat) {u : String}
    (rule : headsRule u = true) (r : Reader) :
    Runs (Flat.statement (fuel + 1) u) r (StatementFollows M past before u r) ⊤ := by
  have parts := rule
  simp only [headsRule, Bool.and_eq_true, Bool.not_eq_true', beq_iff_eq] at parts
  obtain ⟨⟨⟨⟨_, _⟩, notInclude⟩, none⟩, header⟩ := parts
  have notOpen : opensConditional u = false := by simp [opensConditional, none]
  rw [includeTrim] at notInclude
  rw [Flat.statement, if_neg (by simp [notOpen]), if_pos rule]
  refine (@targetFollows M past before valid plain fuel (trim u) (by simpa using header) r).bind
    fun x r₂ events follows => Runs.ofPure ?_
  obtain ⟨t, noted⟩ := x
  intro r'₀ r' lineRead after place later split cont within
  rw [After, if_neg (by simp [notInclude])] at after
  obtain ⟨quiet, r₂', k, mirror, ready₂, budget₂⟩ := follows r' after place later split cont
  have stmt : ∀ n, k + 2 ≤ n → Gives ((statement n u).run r') (.ok (some t, r₂')) := by
    intro n big
    obtain ⟨m, rfl⟩ : ∃ m, n = m + 1 := ⟨n - 1, by omega⟩
    rw [Flat.statementHeadsRule m rule, StateT.run_bind]
    exact givesBind (mirror m (by omega)) (givesPure _)
  have budget := lineRead.budget
  rw [if_neg (by simp [notInclude])] at budget
  refine ⟨r₂', k + 3, Absorbs.line lineRead.more lineRead.reads stmt, by simpa [quiet] using ready₂, ?_⟩
  simp only [List.append_nil, quiet]
  omega

theorem keptFollows (valid : M.Valid) (plain : ∀ m ∈ M.T, m.Plain) (fuel : Nat) {u : String}
    (notOpen : opensConditional u = false) (r : Reader) :
    Runs (Flat.statement fuel u) r (StatementFollows M past before u r) ⊤ := by
  cases fuel with
  | zero => exact Runs.ofThrow trivial
  | succ fuel =>
    by_cases rule : headsRule u = true
    · exact ruleFollows valid plain fuel rule r
    by_cases included : isInclude u = true
    · exact includeFollows valid fuel included r
    · exact plainFollows valid fuel notOpen (by simpa using rule) (by simpa using included) r

end Mirror

end Parse

end Maketree
