import Mathlib
import Maketree.Proofs.Constructs
import Maketree.Proofs.LinesMet
/-! Recipes: the recipe loop reads the lines that start with a tab, apart from the stream. -/
namespace Maketree.Parse

open Text Journal Expansion LineStream

def Stable {α : Type} (p : ReadM α) : Prop :=
  ∀ r (s : LineStream), s.files = r.stream.files →
    p.run { r with stream := s } = (fun x => (x.1, { x.2 with stream := s })) <$> p.run r

namespace Stable
variable {α β : Type}

theorem ofPure (a : α) : Stable (pure a : ReadM α) := fun _ _ _ => rfl

theorem bind {p : ReadM α} {f : α → ReadM β} (first : Stable p) (next : ∀ a, Stable (f a)) :
    Stable (p >>= f) := by
  intro r s files
  -- `p` keeps the reader's own stream, so what follows it starts from that stream
  have keep : p.run r = (fun x => (x.1, { x.2 with stream := r.stream })) <$> p.run r :=
    first r r.stream rfl
  rw [StateT.run_bind, StateT.run_bind, first r s files, bind_map_left]
  conv_rhs => rw [keep, bind_map_left, map_bind]
  congr 1
  funext y
  exact next y.1 { y.2 with stream := r.stream } s files

theorem ofFail (f : Fault) (loc : Option Location) : Stable (fail f loc : ReadM α) := fun _ _ _ => rfl

theorem ofNote (n : Notice) : Stable (note n) := fun _ _ _ => rfl

theorem ofGet {f : Reader → ReadM α}
    (reads : ∀ r (s : LineStream), s.files = r.stream.files → f { r with stream := s } = f r)
    (next : ∀ r, Stable (f r)) : Stable (get >>= f) := by
  intro r s files
  show (f { r with stream := s }).run { r with stream := s } = _ <$> (f r).run r
  rw [reads r s files]
  exact next r r s files

theorem assign (raw value : String) : Stable (Parse.assign raw value) := by
  intro r s _
  simp [Parse.assign]

theorem unassign (name : String) : Stable (Parse.unassign name) := by
  intro r s _
  simp [Parse.unassign]

theorem closed : StepClosed Stable where
  ofPure := ofPure
  bind := bind
  ofFail := ofFail
  ofNote := fun n _ => ofNote n
  assign := assign
  unassign := unassign
  ofGet := ofGet

end Stable

def startsWithTab (line : String) : Bool := line.toList.head? == some '\t'

def recipeRun (s : LineStream) : List (String × Location) := s.upcoming.takeWhile (startsWithTab ·.1)

structure PastRecipe (s s' : LineStream) : Prop where
  ahead : s'.Ahead
  fine : ¬Faulty s'.frames
  files : s'.files = s.files
  upcoming : s'.upcoming = s.upcoming.drop (recipeRun s).length

def stepsOf : String → List (String × Option Location) → ReadM (List Statement)
  | _, [] => pure []
  | cwd, (text, loc) :: rest =>
    if isBlankText text then stepsOf cwd rest
    else do
      let (s, cwd) ← step cwd text loc
      let more ← stepsOf cwd rest
      pure (s :: more)

theorem Stable.stepsOf (cwd : String) (lines : List (String × Option Location)) :
    Stable (stepsOf cwd lines) := by
  induction lines generalizing cwd with
  | nil => exact Stable.ofPure _
  | cons line rest ih =>
    obtain ⟨text, loc⟩ := line
    rw [Parse.stepsOf]
    split
    · exact ih cwd
    · exact Stable.bind (Stable.closed.step _ _ _) fun x => Stable.bind (ih x.2) fun _ => Stable.ofPure _

theorem givesMap {α β : Type} {m : Journal α} {res : Except Halt α} (f : α → β) (gives : Gives m res) :
    Gives (f <$> m) (res.map f) := by
  intro log
  have h := gives log
  simp only [ExceptT.run_map, StateT.run_map]
  exact congrArg (Except.map f) h

def onStream {α : Type} (s : LineStream) (res : Except Halt (α × Reader)) : Except Halt (α × Reader) :=
  res.map fun x => (x.1, { x.2 with stream := s })

@[simp] theorem onStreamTwice {α : Type} (s t : LineStream) (res : Except Halt (α × Reader)) :
    onStream t (onStream s res) = onStream t res := by
  cases res <;> rfl

theorem Stable.transfer {α : Type} {p : ReadM α} (stable : Stable p) {r : Reader} {s t : LineStream}
    (onS : s.files = r.stream.files) (onT : t.files = r.stream.files) {res : Except Halt (α × Reader)}
    (gives : Gives (p.run { r with stream := s }) res) :
    Gives (p.run { r with stream := t }) (onStream t res) := by
  intro log
  have h := gives log
  rw [stable r s onS] at h
  rw [stable r t onT]
  simp only [ExceptT.run_map, StateT.run_map] at h ⊢
  generalize (ExceptT.run (StateT.run p r)).run log = x at h ⊢
  subst h
  obtain ⟨v, _⟩ := x
  cases v <;> rfl

theorem readLineThen {β : Type} {d : Option Bool} {g : String → ReadM β} {r : Reader} {text : String}
    {s' : LineStream} {res : Except Halt (β × Reader)} (reads : Gives (r.stream.readLine d) (.ok (text, s')))
    (next : Gives ((g text).run { r with stream := s' }) res) : Gives ((readLine d >>= g).run r) res := by
  rw [StateT.run_bind, readLineRun, bind_assoc]
  exact givesBind reads (givesBind (givesPure _) next)

theorem peekRun {β : Type} (f : String → ReadM β) (r : Reader) :
    (peek >>= f).run r = (f r.stream.next).run r := rfl

theorem givesThen {α β : Type} {m : ReadM α} {f : α → β} {r : Reader} {res : Except Halt (α × Reader)}
    (gives : Gives (m.run r) res) :
    Gives ((m >>= fun a => pure (f a)).run r) (res.map fun x => (f x.1, x.2)) := by
  rw [bind_pure_comp, StateT.run_map]
  exact givesMap _ gives

theorem getRun {β : Type} (f : Reader → ReadM β) (r : Reader) :
    (get >>= f).run r = (f r).run r := rfl

theorem placeRun {β : Type} (f : Option Location → ReadM β) (r : Reader) :
    (place >>= f).run r = (f r.stream.loc).run r := rfl

theorem atEndRun {β : Type} (f : Bool → ReadM β) (r : Reader) :
    (atEnd >>= f).run r = (f r.stream.eof).run r := rfl

theorem recipeRunAhead {s : LineStream} {pending rest : Pending} {text : String} {loc : Location}
    (tracks : Tracks s pending) (first : next pending = some ((text, loc), rest)) :
    s.upcoming = (text, loc) :: lines rest ∧
      recipeRun s = if startsWithTab text then (text, loc) :: (lines rest).takeWhile (startsWithTab ·.1)
        else [] := by
  have upcoming : s.upcoming = (text, loc) :: lines rest := by
    rw [upcomingOf tracks, linesNext first]
  refine ⟨upcoming, ?_⟩
  rw [recipeRun, upcoming, List.takeWhile_cons]

theorem recipeStepsStop (fuel : Nat) (cwd : String) {r : Reader} (plain : ¬startsWithTab r.stream.next = true) :
    Gives ((recipeSteps (fuel + 1) cwd).run r) (.ok ([], r)) := by
  simp only [startsWithTab, beq_iff_eq] at plain
  rw [recipeSteps, peekRun]
  simp only [beq_iff_eq, plain, if_false]
  exact givesPure _

theorem recipeStepsReads (fuel : Nat) (cwd : String) {r : Reader} {text : String} {s' : LineStream}
    {loc : Location} {res : Except Halt (List Statement × Reader)} (tab : startsWithTab r.stream.next = true)
    (reads : Gives (r.stream.readLine (some false)) (.ok (text, s'))) (here : s'.loc = some loc)
    (next : Gives ((if isBlankText text then recipeSteps fuel cwd else do
        let (s, cwd) ← step cwd text (some loc)
        let rest ← recipeSteps fuel cwd
        pure (s :: rest)).run { r with stream := s' }) res) :
    Gives ((recipeSteps (fuel + 1) cwd).run r) res := by
  simp only [startsWithTab, beq_iff_eq] at tab
  rw [recipeSteps, peekRun]
  simp only [beq_iff_eq, tab, if_true]
  refine readLineThen reads ?_
  split
  · simpa [*] using next
  · rename_i blank
    rw [if_neg blank] at next
    rw [placeRun]
    simpa only [here] using next

theorem recipeStepsReadRun (fuel : Nat) (cwd : String) (r : Reader) (ahead : r.stream.Ahead)
    (fine : ¬Faulty r.stream.frames) (enough : (recipeRun r.stream).length < fuel) :
    ∃ res, Gives ((recipeSteps fuel cwd).run r) res ∧
      Gives ((stepsOf cwd ((recipeRun r.stream).map fun x => (x.1, some x.2))).run r)
        (onStream r.stream res) ∧
      ∀ steps r', res = .ok (steps, r') → PastRecipe r.stream r'.stream := by
  induction fuel generalizing cwd r with
  | zero => exact absurd enough (Nat.not_lt_zero _)
  | succ fuel ih =>
    obtain ⟨pending, tracks⟩ := ahead
    have none : recipeRun r.stream = [] → ¬ startsWithTab r.stream.next = true →
        ∃ res, Gives ((recipeSteps (fuel + 1) cwd).run r) res ∧
          Gives ((stepsOf cwd ((recipeRun r.stream).map fun x => (x.1, some x.2))).run r)
            (onStream r.stream res) ∧
          ∀ steps r', res = .ok (steps, r') → PastRecipe r.stream r'.stream := by
      intro empty plain
      refine ⟨.ok ([], r), recipeStepsStop fuel cwd plain, ?_, ?_⟩
      · rw [empty]
        exact givesPure _
      · intro steps r' same
        cases same
        exact ⟨⟨pending, tracks⟩, fine, rfl, by simp [empty]⟩
    cases tracks with
    | ended ended eof blank =>
      exact none (by simp [recipeRun, upcoming, eof]) (by simp [blank, startsWithTab])
    | @ahead text loc rest first eof line lineLoc frames =>
      obtain ⟨upcoming, run⟩ := recipeRunAhead (.ahead first eof line lineLoc frames) first
      by_cases tab : startsWithTab r.stream.next = true
      · -- the lookahead is a recipe line: it is read without waiting, and the loop goes on after it
        have starts : startsWithTab text = true := by rwa [line] at tab
        rw [if_pos starts] at run
        have moves : (some false).getD (isInclude text) = false := rfl
        obtain ⟨s', closed, views, ahead', reads⟩ :=
          readLineMoves (.ahead first eof line lineLoc frames) first moves
        have read := (reads.logs fine).gives
        have tracks' : Tracks s' rest := by simpa [views] using ahead'.tracks
        have fine' : ¬Faulty s'.frames := ahead'.sound fine
        have files' : s'.files = r.stream.files := ahead'.files
        have loc' : s'.loc = some loc := ahead'.loc
        have run' : recipeRun s' = (lines rest).takeWhile (startsWithTab ·.1) := by
          rw [recipeRun, upcomingOf tracks']
        have enough' : (recipeRun s').length < fuel := by
          rw [run, List.length_cons] at enough
          rw [run']
          omega
        have after : ∀ (r' : Reader), PastRecipe s' r'.stream → PastRecipe r.stream r'.stream := by
          intro r' past
          refine ⟨past.ahead, past.fine, past.files.trans files', ?_⟩
          rw [past.upcoming, upcoming, upcomingOf tracks', run', run]
          rfl
        rw [run, List.map_cons, stepsOf]
        by_cases blank : isBlankText text = true
        · -- a blank recipe line gives no step
          obtain ⟨res, gives, spec, post⟩ := ih cwd { r with stream := s' } ⟨_, tracks'⟩ fine' enough'
          refine ⟨res, recipeStepsReads fuel cwd tab read loc' (by simpa [blank] using gives), ?_, ?_⟩
          · rw [if_pos blank]
            rw [run'] at spec
            simpa using (Stable.stepsOf _ _).transfer files' rfl spec
          · exact fun steps r' ok => after r' (post steps r' ok)
        · -- a recipe line gives a step at its location, read from the directory so far
          rw [if_neg blank]
          obtain ⟨resS, logsS, -, sameS⟩ := Keeps.closed.step cwd text (some loc) { r with stream := s' }
          have stepped := (Stable.closed.step cwd text (some loc)).transfer files' rfl logsS.gives
          rcases resS with h | ⟨⟨st, cwd'⟩, ⟨stream2, context2⟩⟩
          · refine ⟨.error h, recipeStepsReads fuel cwd tab read loc' ?_, ?_, by simp⟩
            · simp only [blank, Bool.false_eq_true, if_false, StateT.run_bind]
              exact givesBindError logsS.gives
            · rw [StateT.run_bind]
              exact givesBindError stepped
          · have same : stream2 = s' := sameS _ _ rfl
            subst same
            obtain ⟨res, gives, spec, post⟩ := ih cwd' ⟨stream2, context2⟩ ⟨_, tracks'⟩ fine' enough'
            refine ⟨res.map fun x => (st :: x.1, x.2), recipeStepsReads fuel cwd tab read loc' ?_, ?_, ?_⟩
            · simp only [blank, Bool.false_eq_true, if_false, StateT.run_bind]
              exact givesBind logsS.gives (givesMap _ gives)
            · rw [StateT.run_bind]
              refine givesBind stepped ?_
              rw [run'] at spec
              have more := (Stable.stepsOf cwd' _).transfer (r := ⟨stream2, context2⟩) (t := r.stream)
                rfl files'.symm spec
              rw [StateT.run_bind]
              simp only [onStreamTwice] at more
              rcases res with h | ⟨steps, r3⟩
              · exact givesBindError more
              · exact givesBind more (givesPure _)
            · intro steps r' ok
              rcases res with h | ⟨more, r3⟩
              · cases ok
              · simp only [Except.map, Except.ok.injEq, Prod.mk.injEq] at ok
                obtain ⟨-, rfl⟩ := ok
                exact after _ (post more r3 rfl)
      · exact none (by rw [run, if_neg (by rwa [line] at tab)]) tab

end Maketree.Parse
