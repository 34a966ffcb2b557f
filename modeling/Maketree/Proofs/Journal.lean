import Maketree.Notice
/-! Outcomes of reader computations, seen apart from the log, which no computation reads. -/
namespace Maketree

def Notice.isFileEvent : Notice → Bool
  | .openedFile _ | .closedFile _ => true
  | _ => false

namespace Journal

variable {α β : Type}

/-- `m` ends with `r`, from every log. -/
def Gives (m : Journal α) (r : Except Halt α) : Prop :=
  ∀ log, ((ExceptT.run m).run log).1 = r

theorem runBind (m : Journal α) (f : α → Journal β) (log : List Notice) :
    (ExceptT.run (m >>= f)).run log =
      match (ExceptT.run m).run log with
      | (.ok a, log') => (ExceptT.run (f a)).run log'
      | (.error e, log') => (.error e, log') := by
  simp only [ExceptT.run_bind, StateT.run_bind]
  rcases (ExceptT.run m).run log with ⟨_ | _, _⟩ <;> rfl

theorem givesPure (a : α) : Gives (pure a : Journal α) (.ok a) := fun _ => rfl

theorem givesThrow (h : Halt) : Gives (throw h : Journal α) (.error h) := fun _ => rfl

theorem givesNote (n : Notice) : Gives (note n) (.ok ()) := fun _ => rfl

theorem givesBind {m : Journal α} {f : α → Journal β} {a : α} {r : Except Halt β}
    (first : Gives m (.ok a)) (next : Gives (f a) r) : Gives (m >>= f) r := by
  intro log
  have h := first log
  rw [runBind]
  rcases run : (ExceptT.run m).run log with ⟨res, log'⟩
  rw [run] at h
  subst h
  exact next log'

theorem givesBindError {m : Journal α} {f : α → Journal β} {e : Halt}
    (first : Gives m (.error e)) : Gives (m >>= f) (.error e) := by
  intro log
  have h := first log
  rw [runBind]
  rcases run : (ExceptT.run m).run log with ⟨res, log'⟩
  rw [run] at h
  subst h
  rfl

theorem givesUnique {m : Journal α} {r r' : Except Halt α} (h : Gives m r) (h' : Gives m r') :
    r = r' :=
  (h []).symm.trans (h' [])

def Logs (m : Journal α) (r : Except Halt α) (events : List Notice) : Prop :=
  ∀ log, ∃ added, (ExceptT.run m).run log = (r, log ++ added) ∧
    added.filter Notice.isFileEvent = events

theorem Logs.gives {m : Journal α} {r : Except Halt α} {events : List Notice} (h : Logs m r events) :
    Gives m r := by
  intro log
  obtain ⟨added, run, -⟩ := h log
  rw [run]

theorem logsPure (a : α) : Logs (pure a : Journal α) (.ok a) [] := fun log => ⟨[], by simp; rfl, rfl⟩

theorem logsThrow (h : Halt) : Logs (throw h : Journal α) (.error h) [] :=
  fun log => ⟨[], by simp; rfl, rfl⟩

theorem logsNote (n : Notice) : Logs (note n) (.ok ()) ([n].filter Notice.isFileEvent) :=
  fun _ => ⟨[n], rfl, rfl⟩

theorem logsBind {m : Journal α} {f : α → Journal β} {a : α} {r : Except Halt β}
    {first second : List Notice} (now : Logs m (.ok a) first) (next : Logs (f a) r second) :
    Logs (m >>= f) r (first ++ second) := by
  intro log
  obtain ⟨added, run, events⟩ := now log
  obtain ⟨added', run', events'⟩ := next (log ++ added)
  refine ⟨added ++ added', ?_, by rw [List.filter_append, events, events']⟩
  rw [runBind, run]
  simpa using run'

theorem logsBindError {m : Journal α} {f : α → Journal β} {h : Halt} {events : List Notice}
    (now : Logs m (.error h) events) : Logs (m >>= f) (.error h) events := by
  intro log
  obtain ⟨added, run, filtered⟩ := now log
  refine ⟨added, ?_, filtered⟩
  rw [runBind, run]

theorem logsThen {m : Journal α} {f : α → Journal β} {a : α} {r : Except Halt β} {events : List Notice}
    (now : Logs m (.ok a) events) (next : Logs (f a) r []) : Logs (m >>= f) r events := by
  simpa using logsBind now next

theorem logsUnique {m : Journal α} {r r' : Except Halt α} {events events' : List Notice}
    (h : Logs m r events) (h' : Logs m r' events') : r = r' ∧ events = events' := by
  obtain ⟨added, run, filtered⟩ := h []
  obtain ⟨added', run', filtered'⟩ := h' []
  rw [run] at run'
  simp only [List.nil_append] at run'
  obtain ⟨rfl, rfl⟩ := run'
  exact ⟨rfl, filtered.symm.trans filtered'⟩

/-- `m` ends one way from every log, with notices that open and close makefiles as `events` says: with
a value that `ok` holds of, given those events, or with a halt that `stop` holds of. -/
def Lands (m : Journal α) (ok : α → List Notice → Prop) (stop : Halt → Prop) : Prop :=
  ∃ res events, Logs m res events ∧ (∀ a, res = .ok a → ok a events) ∧ ∀ h, res = .error h → stop h

namespace Lands

variable {m : Journal α} {ok ok' : α → List Notice → Prop} {stop stop' : Halt → Prop}

theorem mono (h : Lands m ok stop) (okImp : ∀ a events, ok a events → ok' a events)
    (stopImp : ∀ h, stop h → stop' h) : Lands m ok' stop' := by
  obtain ⟨res, events, logs, holds, stops⟩ := h
  exact ⟨res, events, logs, fun a same => okImp a events (holds a same), fun h same => stopImp h (stops h same)⟩

theorem ofPure {a : α} (holds : ok a []) : Lands (pure a) ok stop :=
  ⟨_, [], logsPure a, fun _ same => by cases same; exact holds, by simp⟩

theorem ofThrow {h : Halt} (holds : stop h) : Lands (throw h : Journal α) ok stop :=
  ⟨_, [], logsThrow h, by simp, fun _ same => by cases same; exact holds⟩

theorem ofNote (n : Notice) : Lands (note n) (fun _ _ => True) stop :=
  ⟨_, _, logsNote n, fun _ _ => trivial, by simp⟩

theorem bind {f : α → Journal β} {mid : α → List Notice → Prop} {ok : β → List Notice → Prop}
    (first : Lands m mid stop)
    (next : ∀ a events, mid a events → Lands (f a) (fun b more => ok b (events ++ more)) stop) :
    Lands (m >>= f) ok stop := by
  obtain ⟨res, events, logs, holds, stops⟩ := first
  rcases res with h | a
  · exact ⟨_, events, logsBindError logs, by simp, fun _ same => by cases same; exact stops h rfl⟩
  · obtain ⟨res', more, logs', holds', stops'⟩ := next a events (holds a rfl)
    exact ⟨res', events ++ more, logsBind logs logs', holds', stops'⟩

theorem and (h : Lands m ok stop) (h' : Lands m ok' stop') :
    Lands m (fun a events => ok a events ∧ ok' a events) fun h => stop h ∧ stop' h := by
  obtain ⟨res, events, logs, holds, stops⟩ := h
  obtain ⟨res', events', logs', holds', stops'⟩ := h'
  obtain ⟨rfl, rfl⟩ := logsUnique logs logs'
  exact ⟨res, events, logs, fun a same => ⟨holds a same, holds' a same⟩,
    fun h same => ⟨stops h same, stops' h same⟩⟩

theorem holds (h : Lands m ok stop) {a : α} {events : List Notice} (logs : Logs m (.ok a) events) :
    ok a events := by
  obtain ⟨res, events', logs', holds, -⟩ := h
  obtain ⟨rfl, rfl⟩ := logsUnique logs' logs
  exact holds a rfl

theorem halts (h : Lands m ok stop) {halt : Halt} (halted : ((ExceptT.run m).run []).1 = .error halt) :
    stop halt := by
  obtain ⟨res, _, logs, -, stops⟩ := h
  exact stops halt ((logs.gives []).symm.trans halted)

end Lands

def LogsOrStops (faulty : Prop) (m : Journal α) (r : Except Halt α) (events : List Notice) : Prop :=
  Logs m r events ∨ faulty ∧ ∃ e added, Logs m (.error (.error e)) added

namespace LogsOrStops

variable {P Q : Prop} {m : Journal α} {f : α → Journal β} {a : α} {r : Except Halt β}

theorem logs {r : Except Halt α} {events : List Notice} (h : LogsOrStops P m r events) (fine : ¬P) :
    Logs m r events := by
  rcases h with h | ⟨bad, -⟩
  · exact h
  · exact absurd bad fine

theorem mono {r : Except Halt α} {events : List Notice} (h : LogsOrStops P m r events) (imp : P → Q) :
    LogsOrStops Q m r events := by
  rcases h with h | ⟨bad, stop⟩
  · exact .inl h
  · exact .inr ⟨imp bad, stop⟩

theorem bind {first second : List Notice} (now : LogsOrStops P m (.ok a) first)
    (next : LogsOrStops P (f a) r second) : LogsOrStops P (m >>= f) r (first ++ second) := by
  rcases now with now | ⟨bad, e, added, stop⟩
  · rcases next with next | ⟨bad, e, added, stop⟩
    · exact .inl (logsBind now next)
    · exact .inr ⟨bad, e, first ++ added, logsBind now stop⟩
  · exact .inr ⟨bad, e, added, logsBindError stop⟩

theorem andThen {events : List Notice} (now : LogsOrStops P m (.ok a) events) (next : Logs (f a) r []) :
    LogsOrStops P (m >>= f) r events := by
  simpa using now.bind (.inl next)

end LogsOrStops

end Journal

end Maketree
