import Mathlib
import Maketree.Proofs.FlatReading
import Maketree.Proofs.ReadSteps
/-! How a step of reading ends (`Runs`), and the order in which the flat reading meets lines. -/
namespace Maketree

open Journal Expansion LineStream

namespace Expansion

def lines (pending : Pending) : List (String × Location) :=
  pending.flatMap fun file => file.2.map fun line => (line.1, ⟨file.1, line.2⟩)

@[simp] theorem linesNil : lines [] = [] := rfl

theorem linesCons (path : String) (ls : List (String × Nat)) (rest : Pending) :
    lines ((path, ls) :: rest) = ls.map (fun line => (line.1, ⟨path, line.2⟩)) ++ lines rest := by
  simp [lines]

theorem linesNext {pending rest : Pending} {line : String × Location}
    (first : next pending = some (line, rest)) : lines pending = line :: lines rest := by
  induction pending with
  | nil => simp [next] at first
  | cons file others ih =>
    obtain ⟨path, _ | ⟨⟨text, n⟩, more⟩⟩ := file
    · rw [linesCons, List.map_nil, List.nil_append]
      exact ih first
    · simp only [next, Option.some.injEq, Prod.mk.injEq] at first
      obtain ⟨rfl, rfl⟩ := first
      simp [linesCons]

theorem linesEnded {pending : Pending} (none : next pending = none) : lines pending = [] := by
  induction pending with
  | nil => rfl
  | cons file others ih =>
    obtain ⟨path, _ | ⟨⟨text, n⟩, more⟩⟩ := file
    · rw [linesCons, List.map_nil, List.nil_append]
      exact ih none
    · simp [next] at none

end Expansion

namespace LineStream

def upcoming (s : LineStream) : List (String × Location) :=
  match s.eof, s.nextLoc with
  | false, some loc => (s.next, loc) :: lines (s.frames.map Frame.view)
  | _, _ => []

def Ahead (s : LineStream) : Prop := ∃ pending, Tracks s pending

theorem upcomingOf {s : LineStream} {pending : Pending} (tracks : Tracks s pending) :
    s.upcoming = lines pending := by
  cases tracks with
  | ended none eof _ => simp [upcoming, eof, linesEnded none]
  | ahead first eof line lineLoc frames => simp [upcoming, eof, lineLoc, line, frames, linesNext first]

theorem aheadRelocate {s : LineStream} (ahead : s.Ahead) (loc : Option Location) :
    Ahead { s with loc := loc } := by
  obtain ⟨pending, tracks⟩ := ahead
  refine ⟨pending, ?_⟩
  cases tracks with
  | ended none eof empty => exact .ended none eof empty
  | ahead first eof line lineLoc frames => exact .ahead first eof line lineLoc frames

end LineStream

namespace Parse

/-- `p`, run from `r`, lands as `Lands` says: a success satisfies `post` with the reader after it and
the openings and closings of files it logged, and a halt satisfies `stop`. -/
def Runs {α : Type} (p : ReadM α) (r : Reader) (post : α → Reader → List Notice → Prop)
    (stop : Halt → Prop) : Prop :=
  Lands (p.run r) (fun x => post x.1 x.2) stop

namespace Runs

variable {α β : Type} {p : ReadM α} {r : Reader} {post post' : α → Reader → List Notice → Prop}
  {stop stop' : Halt → Prop}

theorem mono (h : Runs p r post stop) (imp : ∀ a r' events, post a r' events → post' a r' events) :
    Runs p r post' stop :=
  Lands.mono h (fun x events => imp x.1 x.2 events) fun _ => id

theorem stops (h : Runs p r post stop) (imp : ∀ h, stop h → stop' h) : Runs p r post stop' :=
  Lands.mono h (fun _ _ => id) imp

theorem bind {f : α → ReadM β} {mid : α → Reader → List Notice → Prop}
    {post : β → Reader → List Notice → Prop} (first : Runs p r mid stop)
    (next : ∀ a r' events, mid a r' events → Runs (f a) r' (fun b r'' more => post b r'' (events ++ more)) stop) :
    Runs (p >>= f) r post stop := by
  unfold Runs
  rw [StateT.run_bind]
  exact Lands.bind first fun x events holds => next x.1 x.2 events holds

theorem ofPure {a : α} (holds : post a r []) : Runs (pure a) r post stop :=
  Lands.ofPure holds

theorem ofThrow {h : Halt} (holds : stop h) : Runs (throw h : ReadM α) r post stop :=
  Lands.ofThrow holds

theorem ofFail (f : Fault) (loc : Option Location) (holds : stop (.error ⟨f, loc⟩)) :
    Runs (fail f loc : ReadM α) r post stop :=
  ofThrow holds

theorem failThen {γ : Type} {g : γ → ReadM α} (f : Fault) (loc : Option Location)
    (holds : stop (.error ⟨f, loc⟩)) : Runs (fail f loc >>= g) r post stop := by
  unfold fail
  rw [Flat.throwBind]
  exact ofThrow holds

theorem and (h : Runs p r post stop) (h' : Runs p r post' stop') :
    Runs p r (fun a r' events => post a r' events ∧ post' a r' events) stop :=
  (Lands.and h h').mono (fun _ _ => id) fun _ both => both.1

theorem reading {f : α → ReadM β} {a : α} {post : β → Reader → List Notice → Prop}
    (reads : Logs (p.run r) (.ok (a, r)) []) (next : Runs (f a) r post stop) : Runs (p >>= f) r post stop := by
  obtain ⟨res, events, logs, holds, stops⟩ := next
  refine ⟨res, events, ?_, holds, stops⟩
  rw [StateT.run_bind]
  simpa using logsBind reads logs

theorem atEndThen {f : Bool → ReadM β} {post : β → Reader → List Notice → Prop}
    (next : Runs (f r.stream.eof) r post stop) : Runs (atEnd >>= f) r post stop :=
  reading (show Logs (atEnd.run r) (.ok (r.stream.eof, r)) [] from logsPure _) next

theorem peekThen {f : String → ReadM β} {post : β → Reader → List Notice → Prop}
    (next : Runs (f r.stream.next) r post stop) : Runs (peek >>= f) r post stop :=
  reading (show Logs (peek.run r) (.ok (r.stream.next, r)) [] from logsPure _) next

theorem placeThen {f : Option Location → ReadM β} {post : β → Reader → List Notice → Prop}
    (next : Runs (f r.stream.loc) r post stop) : Runs (place >>= f) r post stop :=
  reading (show Logs (place.run r) (.ok (r.stream.loc, r)) [] from logsPure _) next

theorem getThen {f : Reader → ReadM β} {post : β → Reader → List Notice → Prop}
    (next : Runs (f r) r post stop) : Runs (get >>= f) r post stop :=
  reading (show Logs ((get : ReadM Reader).run r) (.ok (r, r)) [] from logsPure _) next

theorem noteThen {n : Notice} {f : Unit → ReadM β} {post : β → Reader → List Notice → Prop}
    (quiet : n.isFileEvent = false) (next : Runs (f ()) r post stop) : Runs (note n >>= f) r post stop := by
  refine reading ?_ next
  have added := logsBind (f := fun _ => pure ((), r)) (logsNote n) (logsPure ((), r))
  have none : [n].filter Notice.isFileEvent ++ [] = [] := by simp [quiet]
  rw [none] at added
  exact added

theorem ofKeeps (keeps : Keeps p) :
    Runs p r (fun _ r' events => r'.stream = r.stream ∧ events = []) ⊤ := by
  obtain ⟨res, logs, -, same⟩ := keeps r
  exact ⟨res, [], logs, fun x ok => ⟨same x.1 x.2 ok, rfl⟩, fun _ _ => trivial⟩

theorem withGives (h : Runs p r post stop) :
    Runs p r (fun a r' events => Gives (p.run r) (.ok (a, r')) ∧ post a r' events) stop := by
  obtain ⟨res, events, logs, holds, stops⟩ := h
  exact ⟨res, events, logs, fun x same => ⟨same ▸ logs.gives, holds x same⟩, stops⟩

theorem ofRun {q : ReadM α} (same : p.run r = q.run r) (h : Runs q r post stop) : Runs p r post stop := by
  unfold Runs
  rw [same]
  exact h

theorem holds {a : α} {r₁ : Reader} {events : List Notice} (h : Runs p r post stop)
    (logs : Logs (p.run r) (.ok (a, r₁)) events) : post a r₁ events :=
  Lands.holds h logs

theorem givesHolds {a : α} {r₁ : Reader} (h : Runs p r post stop) (gives : Gives (p.run r) (.ok (a, r₁))) :
    ∃ events, post a r₁ events := by
  obtain ⟨res, events, logs, holds, -⟩ := h
  obtain rfl := givesUnique logs.gives gives
  exact ⟨events, holds _ rfl⟩

end Runs

def Continues : Trace → List (String × Location) → Prop
  | _, [] => True
  | [], _ :: _ => False
  | m :: T, (text, loc) :: upcoming => m.text = text ∧ m.loc = some loc ∧ (m.waited = false → Continues T upcoming)

@[simp] theorem continuesNil (T : Trace) : Continues T [] := by
  cases T <;> trivial

def Met.Plain (m : Met) : Prop :=
  (m.use = .consumed none → m.waited = false) ∧ ∀ s, m.use = .consumed (some s) → s.toList.head? ≠ some '\t'

structure MetRead (r : Reader) (m : Met) (r' : Reader) : Prop where
  plain : m.Plain
  ahead : r.stream.Ahead → r'.stream.Ahead
  continues : r.stream.Ahead → ∀ later, (m.waited = false → Continues later r'.stream.upcoming) →
    Continues (m :: later) r.stream.upcoming

structure MetInOrder (ready : Prop) (r : Reader) (T : Trace) (r' : Reader) : Prop where
  plain : ∀ m ∈ T, m.Plain
  ahead : r.stream.Ahead → r'.stream.Ahead
  continues : ready → r.stream.Ahead → ∀ later, Continues later r'.stream.upcoming →
    Continues (T ++ later) r.stream.upcoming

namespace MetInOrder

variable {ready : Prop} {r r₁ r₂ : Reader} {T T₂ : Trace}

theorem refl {r' : Reader} (same : r'.stream = r.stream) : MetInOrder ready r [] r' :=
  ⟨by simp, fun ahead => same ▸ ahead, fun _ _ later holds => by simpa [← same] using holds⟩

theorem trans (first : MetInOrder ready r T r₁) (second : MetInOrder True r₁ T₂ r₂) :
    MetInOrder ready r (T ++ T₂) r₂ := by
  refine ⟨fun m mem => ?_, fun ahead => second.ahead (first.ahead ahead), fun holds ahead later cont => ?_⟩
  · rcases List.mem_append.mp mem with mem | mem
    · exact first.plain m mem
    · exact second.plain m mem
  · rw [List.append_assoc]
    exact first.continues holds ahead _ (second.continues trivial (first.ahead ahead) later cont)

theorem weaken {ready' : Prop} (h : MetInOrder ready r T r₁) (imp : ready' → ready) :
    MetInOrder ready' r T r₁ :=
  ⟨h.plain, h.ahead, fun holds => h.continues (imp holds)⟩

end MetInOrder

theorem MetRead.followedBy {ready : Prop} {r r₁ r₂ : Reader} {m : Met} {T : Trace} (read : MetRead r m r₁)
    (rest : MetInOrder (m.waited = false) r₁ T r₂) : MetInOrder ready r (m :: T) r₂ := by
  refine ⟨fun n mem => ?_, fun ahead => rest.ahead (read.ahead ahead), fun _ ahead later cont => ?_⟩
  · rcases List.mem_cons.mp mem with rfl | mem
    · exact read.plain
    · exact rest.plain n mem
  · exact read.continues ahead _ fun moved => rest.continues moved (read.ahead ahead) later cont


def InOrder {α : Type} (ready : Prop) (p : ReadM (α × Trace)) (r : Reader) : Prop :=
  Runs p r (fun x r' _ => MetInOrder ready r x.2 r') ⊤

theorem readNotingRun (defer : Option Bool) (use : String → Use) (r : Reader) :
    (Flat.readNoting defer use).run r = (r.stream.readLine defer >>= fun x =>
      pure ((x.1, [⟨x.1, x.2.loc, defer.getD (isInclude x.1), use x.1⟩]), { r with stream := x.2 })) := by
  simp [Flat.readNoting, readLine, place]

theorem readNotingRuns (defer : Option Bool) (use : String → Use) (r : Reader) :
    Runs (Flat.readNoting defer use) r (fun x r₁ events =>
      x = (r.stream.next,
        [⟨r.stream.next, r.stream.nextLoc, defer.getD (isInclude r.stream.next), use r.stream.next⟩]) ∧
      r₁.context = r.context ∧ ∃ closed, events = closed.map Notice.closedFile ∧
        if defer.getD (isInclude r.stream.next) then r₁.stream = { r.stream with loc := r.stream.nextLoc }
        else ReadAhead { r.stream with loc := r.stream.nextLoc } r₁.stream closed) ⊤ := by
  unfold Runs
  rw [readNotingRun]
  by_cases waits : defer.getD (isInclude r.stream.next) = true
  · have reads : r.stream.readLine defer = pure (r.stream.next, { r.stream with loc := r.stream.nextLoc }) := by
      simp [LineStream.readLine, waits]
    rw [reads, pure_bind]
    refine ⟨_, [], logsPure _, fun x same => ?_, fun _ _ => trivial⟩
    cases same
    exact ⟨by simp [waits], rfl, [], rfl, by simp [waits]⟩
  · have moves : defer.getD (isInclude r.stream.next) = false := by simpa using waits
    obtain ⟨s', closed, ahead, reads⟩ := advanceReads { r.stream with loc := r.stream.nextLoc }
    have run : r.stream.readLine defer =
        ({ r.stream with loc := r.stream.nextLoc }.advance >>= fun s' => pure (r.stream.next, s')) := by
      simp [LineStream.readLine, moves]
    rw [run, bind_assoc]
    rcases reads with reads | ⟨-, e, added, stops⟩
    · refine ⟨_, _, logsThen reads (by simpa using logsPure _), fun x same => ?_, fun _ _ => trivial⟩
      cases same
      exact ⟨by simp [ahead.loc, moves], rfl, closed, rfl, by simpa [moves] using ahead⟩
    · exact ⟨_, added, logsBindError stops, by simp, fun _ _ => trivial⟩

theorem readNotingMet (defer : Option Bool) (use : String → Use) (r : Reader)
    (plain : Met.Plain ⟨r.stream.next, r.stream.nextLoc, defer.getD (isInclude r.stream.next), use r.stream.next⟩) :
    Runs (Flat.readNoting defer use) r (fun x r' _ => x.1 = r.stream.next ∧
      ∃ m, x.2 = [m] ∧ m.waited = defer.getD (isInclude r.stream.next) ∧ m.use = use r.stream.next ∧
        MetRead r m r') ⊤ := by
  refine (readNotingRuns defer use r).mono fun x r₁ _ ⟨noted, _, closed, _, moved⟩ => ?_
  subst noted
  by_cases waits : defer.getD (isInclude r.stream.next) = true
  · -- the read waits: only the location moves
    rw [if_pos waits] at moved
    refine ⟨rfl, _, rfl, rfl, rfl, plain, fun ahead => moved ▸ aheadRelocate ahead _, fun _ later _ => ?_⟩
    unfold upcoming
    split
    · exact ⟨rfl, by simp_all, by simp [waits]⟩
    · trivial
  · -- the read moves on: what follows meets what the files hold
    rw [if_neg waits] at moved
    have tracks := moved.tracks
    refine ⟨rfl, _, rfl, rfl, rfl, plain, fun _ => ⟨_, tracks⟩, fun ahead later cont => ?_⟩
    obtain ⟨pending, before⟩ := ahead
    rw [upcomingOf before]
    cases before with
    | ended none _ _ => simp [linesEnded none]
    | ahead first _ line lineLoc frames =>
      rw [linesNext first]
      refine ⟨line.symm ▸ rfl, by simp [lineLoc], fun _ => ?_⟩
      rw [← frames, ← upcomingOf tracks]
      exact cont (by simpa using waits)

theorem opensNotInclude {raw : String} (opens : opensConditional raw = true) : isInclude raw = false := by
  simp only [opensConditional, Bool.and_eq_true, Bool.or_eq_true, beq_iff_eq] at opens
  rcases opens.2 with found | found <;> exact directiveNotInclude found

theorem elseUsePlain {rest : String} (trimmed : Text.trim rest = rest) (consumed : elseUse rest = .consumed none) :
    isInclude rest = false := by
  unfold elseUse at consumed
  split at consumed
  · rename_i found
    exact directiveNotInclude (by rw [trimmed]; exact found)
  · rename_i found
    exact directiveNotInclude (by rw [trimmed]; exact found)
  · simp only [Use.consumed.injEq, ite_eq_left_iff, reduceCtorEq, imp_false, Bool.not_eq_true,
      Bool.or_eq_false_iff, not_and, Bool.not_eq_false] at consumed
    by_cases empty : rest.isEmpty = true
    · rw [String.isEmpty_iff.mp empty]
      rfl
    · exact commentNotInclude (consumed (by simpa using empty))

theorem elseUseStand {rest s : String} (trimmed : Text.trim rest = rest) (consumed : elseUse rest = .consumed (some s)) :
    s.toList.head? ≠ some '\t' := by
  unfold elseUse at consumed
  split at consumed
  · simp at consumed
  · simp at consumed
  · split at consumed
    · simp at consumed
    · simp only [Use.consumed.injEq, Option.some.injEq] at consumed
      rw [← consumed, ← trimmed]
      exact Text.trimNoTab rest

theorem Met.plainKept (text : String) (loc : Option Location) (waited : Bool) :
    Met.Plain ⟨text, loc, waited, .kept⟩ := by
  simp [Met.Plain]

theorem Met.plainConsumed (text : String) (loc : Option Location) {waited : Bool} (moved : waited = false) :
    Met.Plain ⟨text, loc, waited, .consumed none⟩ := by
  simp [Met.Plain, moved]

theorem Met.plainLoop (raw : String) (loc : Option Location) : Met.Plain ⟨raw, loc, isInclude raw, loopUse raw⟩ := by
  refine ⟨fun consumed => ?_, fun s consumed => ?_⟩ <;> unfold loopUse at consumed <;> split at consumed
  · exact opensNotInclude ‹_›
  · simp at consumed
  · simp at consumed
  · simp at consumed

theorem Met.plainElse (text : String) (loc : Option Location) (other : Bool) {rest : String}
    (trimmed : Text.trim rest = rest) : Met.Plain ⟨text, loc, (some (isInclude rest)).getD other, elseUse rest⟩ :=
  ⟨fun consumed => elseUsePlain trimmed consumed, fun _ consumed => elseUseStand trimmed consumed⟩

theorem statementKeeps (fuel : Nat) {raw : String} (notOpen : opensConditional raw = false)
    (notRule : headsRule raw = false) (plain : isInclude raw = false) :
    Keeps (statement (fuel + 1) raw) := by
  rw [statement]
  split
  · exact Keeps.ofPure _
  dsimp only
  split
  · exact Keeps.place.bind fun _ => (Keeps.closed.exportDirective _ _ _).bind fun _ => Keeps.ofPure _
  · exact Keeps.place.bind fun _ => (Keeps.closed.exportDirective _ _ _).bind fun _ => Keeps.ofPure _
  split
  · exact (Keeps.assign _ _).bind fun _ => Keeps.ofPure _
  split
  · rename_i included
    simp [plain] at included
  split
  · rename_i hash _ _ _ assignment _ _ found
    simp [opensConditional, hash, assignment, found] at notOpen
  · rename_i hash _ _ _ assignment _ _ found
    simp [opensConditional, hash, assignment, found] at notOpen
  · exact Keeps.place.bind fun _ => Keeps.ofFail _ _
  · exact Keeps.place.bind fun _ => Keeps.ofFail _ _
  rename_i hash _ exported unexported assignment included _ ifeq ifneq orElse endif
  split
  · rename_i header
    -- a line that is no directive of any kind and has a rule's colon heads a rule
    have none : directive? (Text.trim raw) = none := by
      cases found : directive? (Text.trim raw) with
      | none => rfl
      | some d => cases d <;> simp_all
    simp [headsRule, hash, assignment, included, none, header] at notRule
  · exact Keeps.place.bind fun _ => (Keeps.ofNote _ rfl).bind fun _ => Keeps.ofPure _

theorem statementIncludes (fuel : Nat) {raw : String} (included : isInclude raw = true) :
    statement (fuel + 1) raw = includeDirective (Text.trim raw) >>= fun s => pure (some s) := by
  rw [statement]
  simp [includeNotComment included, includeNoDirective included, includeNotAssignment included, included]

def IncludeOpened (r : Reader) (path : String) (r' : Reader) (events : List Notice) : Prop :=
  ∃ bytes closed, r.stream.files.read (Path.normalJoin r.stream.workDir path) = .ok bytes ∧
    ReadAhead { r.stream with
      frames := Frame.ofSource (Path.normalJoin r.stream.workDir path) (Source.ofBytes bytes) :: r.stream.frames }
      r'.stream closed ∧
    events = .openedFile (Path.normalJoin r.stream.workDir path) :: closed.map Notice.closedFile ∧
    r'.context = r.context

theorem openIncludeRuns (path : String) (r : Reader) :
    Runs (openInclude path) r (fun _ r' events => IncludeOpened r path r' events) ⊤ := by
  unfold Runs IncludeOpened
  rw [openIncludeRun]
  rcases read : r.stream.files.read (Path.normalJoin r.stream.workDir path) with why | bytes
  · exact ⟨_, [], logsBindError (includeFails read), by simp, fun _ _ => trivial⟩
  · obtain ⟨s', closed, ahead, reads⟩ := includeOpens read
    rcases reads with reads | ⟨-, e, added, stops⟩
    · refine ⟨_, _, logsThen reads (logsPure _), fun _ same => ?_, fun _ _ => trivial⟩
      cases same
      exact ⟨bytes, closed, rfl, ahead, rfl, rfl⟩
    · exact ⟨_, added, logsBindError stops, by simp, fun _ _ => trivial⟩

theorem includeDirectiveRuns (line : String) (r : Reader) :
    Runs (includeDirective line) r (fun s r' events => ∃ path, (Text.words line)[1]? = some path ∧
      s = .includeFile path ∧ IncludeOpened r path r' events) ⊤ := by
  unfold includeDirective
  split
  · rename_i path extra found
    have opens : Runs (openInclude path >>= fun _ => pure (Statement.includeFile path)) r
        (fun s r' events => ∃ path, (Text.words line)[1]? = some path ∧ s = .includeFile path ∧
          IncludeOpened r path r' events) ⊤ :=
      (openIncludeRuns path r).bind fun _ r' events opened =>
        Runs.ofPure ⟨path, by simp [found], rfl, by simpa using opened⟩
    split
    · exact Runs.placeThen (Runs.noteThen rfl opens)
    · exact opens
  · exact Runs.placeThen (Runs.ofFail _ _ trivial)

theorem otherInOrder (fuel : Nat) {raw : String} (notOpen : opensConditional raw = false)
    (notRule : headsRule raw = false) (r : Reader) :
    InOrder (isInclude raw = false)
      (statement (fuel + 1) raw >>= fun s => pure (Statement.flatten s.toList, ([] : Trace))) r := by
  cases included : isInclude raw with
  | false =>
    exact (Runs.ofKeeps (statementKeeps fuel notOpen notRule included)).bind
      fun _ r' _ ⟨same, _⟩ => Runs.ofPure (MetInOrder.refl same)
  | true =>
    rw [statementIncludes fuel included, bind_assoc]
    refine (includeDirectiveRuns _ r).bind fun _ r' _ ⟨_, _, _, _, _, _, ahead, _⟩ => ?_
    simp only [pure_bind]
    exact Runs.ofPure ⟨by simp, fun _ => ⟨_, ahead.tracks⟩, fun no => absurd no (by simp)⟩

theorem recipeStepsInOrder (fuel : Nat) (cwd : String) (r : Reader) :
    InOrder True (Flat.recipeSteps fuel cwd) r := by
  induction fuel generalizing cwd r with
  | zero => exact Runs.ofThrow trivial
  | succ fuel ih =>
    rw [Flat.recipeSteps]
    refine Runs.peekThen ?_
    split
    · refine (readNotingMet (some false) (fun _ => .kept) r (Met.plainKept _ _ _)).bind
        fun x r₁ _ noted => ?_
      obtain ⟨line, _⟩ := x
      obtain ⟨_, m, noted_eq, _, _, read⟩ := noted
      subst noted_eq
      dsimp only
      split
      · refine (ih cwd r₁).bind fun _ r₂ _ rest => ?_
        exact Runs.ofPure (read.followedBy (rest.weaken fun _ => trivial))
      · refine Runs.placeThen ((Runs.ofKeeps (Keeps.closed.step _ _ _)).bind fun _ r₂ _ kept =>
          (ih _ r₂).bind fun _ r₃ _ rest => ?_)
        exact Runs.ofPure (read.followedBy (((MetInOrder.refl kept.1).trans rest).weaken fun _ => trivial))
    · exact Runs.ofPure (MetInOrder.refl rfl)

theorem targetInOrder (fuel : Nat) (line : String) (r : Reader) : InOrder True (Flat.target fuel line) r := by
  have recipe : ∀ (cwd : String) (r' : Reader), r'.stream = r.stream →
      Runs (Flat.recipeSteps fuel cwd) r' (fun x r₂ _ => MetInOrder True r x.2 r₂) ⊤ := by
    intro cwd r' same
    exact (recipeStepsInOrder fuel cwd r').mono fun _ r₂ _ rest => (MetInOrder.refl same).trans rest
  unfold Flat.target
  refine Runs.placeThen ?_
  split
  · exact Runs.ofFail _ _ trivial
  dsimp only
  split
  · exact Runs.ofFail _ _ trivial
  split
  · rename_i c _
    refine Runs.getThen (Runs.getThen ?_)
    by_cases blank : Text.isBlankText c = true
    · simp only [blank, if_true, pure_bind]
      exact (recipe _ _ rfl).bind fun _ _ _ met => Runs.ofPure met
    · simp only [blank, Bool.false_eq_true, if_false, pure_bind]
      exact (Runs.ofKeeps (Keeps.closed.step _ _ _)).bind fun _ r' _ kept =>
        (recipe _ r' kept.1).bind fun _ _ _ met => Runs.ofPure met
  · refine Runs.getThen (Runs.getThen ?_)
    simp only [pure_bind]
    exact (recipe _ _ rfl).bind fun _ _ _ met => Runs.ofPure met

theorem loopStepInOrder {fuel : Nat} {body : ReadM (List Statement × Trace)}
    (onStatement : ∀ raw r, InOrder (isInclude raw = false) (Flat.statement fuel raw) r)
    (rest : ∀ r, InOrder True body r) (r : Reader) :
    InOrder True (do
      let (raw, noted) ← Flat.readNoting none loopUse
      let (first, more) ← Flat.statement fuel raw
      let (steps, rest) ← body
      pure (first ++ steps, noted ++ more ++ rest)) r := by
  refine (readNotingMet none loopUse r (Met.plainLoop _ _)).bind fun x r₁ _ noted => ?_
  obtain ⟨raw, _⟩ := x
  obtain ⟨same, m, noted_eq, waited, _, read⟩ := noted
  subst noted_eq
  refine (onStatement raw r₁).bind fun _ r₂ _ stmt => (rest r₂).bind fun _ r₃ _ after => Runs.ofPure ?_
  -- reading went on after the line unless it was an include line, which is then the statement's
  have moved : m.waited = false → isInclude raw = false := by
    intro w
    have line : raw = r.stream.next := same
    rw [waited] at w
    simpa [line] using w
  exact read.followedBy ((stmt.weaken moved).trans after)

theorem endifInOrder {r : Reader} (found : directive? (Text.trim r.stream.next) = some .endif) :
    InOrder True (do
      let (_, noted) ← Flat.readNoting none fun _ => .consumed none
      pure (([] : List Statement), noted)) r := by
  have plain : isInclude r.stream.next = false := by simpa using directiveNotInclude found
  refine (readNotingMet none (fun _ => .consumed none) r (Met.plainConsumed _ _ plain)).bind
    fun x r₁ _ noted => ?_
  obtain ⟨_, _⟩ := x
  obtain ⟨_, m, noted_eq, _, _, read⟩ := noted
  subst noted_eq
  exact Runs.ofPure (read.followedBy (MetInOrder.refl rfl))

theorem statementInOrder (fuel : Nat) :
    (∀ raw r, InOrder (isInclude raw = false) (Flat.statement fuel raw) r) ∧
    (∀ line r, InOrder True (Flat.arm fuel line) r) ∧
    (∀ start r, InOrder True (Flat.armBody fuel start) r) ∧
    (∀ rest start r, InOrder (isInclude rest = false) (Flat.elseArm fuel rest start) r) ∧
    (∀ start r, InOrder True (Flat.elseBody fuel start) r) := by
  induction fuel with
  | zero =>
    exact ⟨fun _ _ => Runs.ofThrow trivial, fun _ _ => Runs.ofThrow trivial, fun _ _ => Runs.ofThrow trivial,
      fun _ _ _ => Runs.ofThrow trivial, fun _ _ => Runs.ofThrow trivial⟩
  | succ fuel ih =>
    obtain ⟨statements, arms, bodies, elseArms, elseBodies⟩ := ih
    refine ⟨fun raw r => ?_, fun line r => ?_, fun start r => ?_, fun rest start r => ?_, fun start r => ?_⟩
    · rw [Flat.statement]
      by_cases opens : opensConditional raw = true
      · rw [if_pos opens]
        exact (arms _ r).mono fun _ _ _ met => met.weaken fun _ => trivial
      rw [if_neg opens]
      by_cases rule : headsRule raw = true
      · rw [if_pos rule]
        refine (targetInOrder fuel _ r).bind fun _ _ _ met => ?_
        exact Runs.ofPure (met.weaken fun _ => trivial)
      · rw [if_neg rule]
        exact otherInOrder fuel (by simpa using opens) (by simpa using rule) r
    · rw [Flat.arm]
      refine Runs.placeThen ?_
      split
      · exact bodies _ r
      · exact Runs.ofFail _ _ trivial
    · rw [Flat.armBody]
      refine Runs.atEndThen ?_
      split
      · exact Runs.failThen _ _ trivial
      refine Runs.peekThen ?_
      dsimp only
      split
      · exact endifInOrder ‹_›
      · rename_i found
        refine (readNotingMet (some (isInclude (Directive.orElse.argument (Text.trim r.stream.next))))
          (fun _ => elseUse (Directive.orElse.argument (Text.trim r.stream.next))) r
          (Met.plainElse r.stream.next r.stream.nextLoc _ (argumentTrimmed .orElse (Text.trim r.stream.next)))).bind
          fun x r₁ _ noted => ?_
        obtain ⟨_, _⟩ := x
        obtain ⟨_, m, noted_eq, waited, _, read⟩ := noted
        subst noted_eq
        dsimp only
        split
        · refine (arms _ r₁).bind fun _ _ _ met => ?_
          exact Runs.ofPure (read.followedBy (met.weaken fun _ => trivial))
        · refine (arms _ r₁).bind fun _ _ _ met => ?_
          exact Runs.ofPure (read.followedBy (met.weaken fun _ => trivial))
        · refine (elseArms _ start r₁).bind fun _ _ _ met => ?_
          exact Runs.ofPure (read.followedBy (met.weaken fun moved => by simpa [waited] using moved))
      · exact loopStepInOrder statements (bodies start) r
    · rw [Flat.elseArm]
      by_cases empty : (rest.isEmpty || startsWithHash rest) = true
      · simp only [empty, if_true, pure_bind, List.nil_append]
        refine (elseBodies start r).bind fun _ _ _ met => ?_
        exact Runs.ofPure (met.weaken fun _ => trivial)
      · simp only [empty, Bool.false_eq_true, if_false]
        refine (statements rest r).bind fun _ r₁ _ first => (elseBodies start r₁).bind
          fun _ r₂ _ more => ?_
        exact Runs.ofPure (first.trans more)
    · rw [Flat.elseBody]
      refine Runs.atEndThen ?_
      split
      · exact Runs.failThen _ _ trivial
      refine Runs.peekThen ?_
      split
      · rename_i found
        exact endifInOrder (by simpa using found)
      · exact loopStepInOrder statements (elseBodies start) r

theorem statementsInOrder (fuel : Nat) (r : Reader) : InOrder True (Flat.statements fuel) r := by
  induction fuel generalizing r with
  | zero => exact Runs.ofThrow trivial
  | succ fuel ih =>
    rw [Flat.statements]
    refine Runs.atEndThen ?_
    split
    · exact Runs.ofPure (MetInOrder.refl rfl)
    · exact loopStepInOrder (statementInOrder fuel).1 ih r

end Parse

end Maketree
