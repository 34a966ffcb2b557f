import Mathlib
import Maketree.Parse.Statement
import Maketree.Proofs.OpenFiles
import Maketree.Proofs.LineStream
/-! The steps of reading, measured by a weight that falls at every line read. -/
namespace Maketree

open Journal Expansion LineStream

def Halt.Proper : Halt → Prop
  | .error _ => True
  | .unhandled path why => why = .nulInPath ∧ Char.ofNat 0 ∈ path.toList
  | .exhausted => False

namespace Parse

structure Limits where
  files : FileSystem
  width : Nat
  wide : ∀ e ∈ files.files, (LogicalLine.expand 0 (Source.ofBytes e.2).lines).length ≤ width

namespace Limits

variable (L : Limits)

def depth : Nat := L.files.files.length + 1

def cost (k : Nat) : Nat := (L.width + 1) ^ (L.depth - k)

def weight : Pending → Nat
  | [] => 0
  | (_, lines) :: rest => lines.length * L.cost (rest.length + 1) + weight rest

theorem costPos (k : Nat) : 0 < L.cost k := pow_pos (Nat.succ_pos _) _

theorem weightNext {pending rest : Pending} {text : String} {loc : Location}
    (first : Expansion.next pending = some ((text, loc), rest)) :
    L.weight pending = L.weight rest + L.cost rest.length := by
  induction pending with
  | nil => simp [Expansion.next] at first
  | cons entry below ih =>
    obtain ⟨path, lines⟩ := entry
    cases lines with
    | nil =>
      simp only [Expansion.next] at first
      simp [weight, ih first]
    | cons line more =>
      simp only [Expansion.next, Option.some.injEq, Prod.mk.injEq] at first
      obtain ⟨-, rfl⟩ := first
      simp only [weight, List.length_cons]
      ring

theorem includeCheaper {lines : List (String × Nat)} {rest : Pending} (few : lines.length ≤ L.width)
    (room : rest.length + 1 ≤ L.depth) :
    lines.length * L.cost (rest.length + 1) + 1 ≤ L.cost rest.length := by
  have step : L.cost rest.length = L.cost (rest.length + 1) * (L.width + 1) := by
    simp only [cost]
    rw [← Nat.pow_succ]
    congr 1
    omega
  have fewer : lines.length * L.cost (rest.length + 1) ≤ L.width * L.cost (rest.length + 1) :=
    Nat.mul_le_mul_right _ few
  have pos := L.costPos (rest.length + 1)
  rw [step]
  nlinarith

end Limits

variable (L : Limits)

structure Sound (stack : List String) (s : LineStream) : Prop where
  files : s.files = L.files
  mirrors : stack <+: s.frames.map Frame.path
  depth : s.frames.length ≤ stack.length + 1
  distinct : (stack.map L.files.locate).Nodup
  listed : ∀ q ∈ stack, ∃ key ∈ L.files.files.map Prod.fst, L.files.locate q = some key

def Ready (stack : List String) (r : Reader) (phi : Nat) : Prop :=
  Sound L stack r.stream ∧ ∃ pending, Tracks r.stream pending ∧ L.weight pending ≤ phi

def Waiting (stack : List String) (r : Reader) (phi : Nat) : Prop :=
  Sound L stack r.stream ∧
    L.weight (r.stream.frames.map Frame.view) + L.cost r.stream.frames.length ≤ phi + 1

def After (stack : List String) (r : Reader) (line : String) (phi : Nat) : Prop :=
  if isInclude line then Waiting L stack r phi else Ready L stack r phi

namespace Sound

variable {L} {stack : List String} {s : LineStream}

theorem congr {s' : LineStream} (sound : Sound L stack s) (files : s'.files = s.files)
    (frames : s'.frames = s.frames) : Sound L stack s' := by
  obtain ⟨sameFiles, mirrors, depth, distinct, listed⟩ := sound
  exact ⟨files.trans sameFiles, frames ▸ mirrors, frames ▸ depth, distinct, listed⟩

theorem relocate (sound : Sound L stack s) (loc : Option Location) : Sound L stack { s with loc := loc } :=
  sound.congr rfl rfl

theorem bounded (sound : Sound L stack s) : s.frames.length ≤ L.depth := by
  have few := openFilesBounded sound.distinct sound.listed
  have := sound.depth
  simp only [Limits.depth]
  omega

theorem readAhead {s' : LineStream} {closed : List String} (sound : Sound L stack s)
    (ahead : ReadAhead s s' closed) : Sound L (stack.drop closed.length) s' := by
  have lengths := congrArg List.length ahead.paths
  simp only [List.length_map, List.length_append] at lengths
  refine ⟨ahead.files.trans sound.files, ?_, ?_, ?_, ?_⟩
  · have shifted := sound.mirrors.drop closed.length
    rwa [ahead.paths, List.drop_left] at shifted
  · have := sound.depth
    simp only [List.length_drop]
    omega
  · rw [List.map_drop]
    exact sound.distinct.sublist (List.drop_sublist _ _)
  · exact fun q mem => sound.listed q (List.mem_of_mem_drop mem)

theorem opened {path : String} {bytes : List UInt8} (sound : Sound L stack s)
    (read : L.files.read path = .ok bytes) (fresh : ∀ q ∈ stack, L.files.locate q ≠ L.files.locate path) :
    Sound L (path :: stack) { s with frames := Frame.ofSource path (Source.ofBytes bytes) :: s.frames } := by
  obtain ⟨key, located, inFiles⟩ := FileSystem.readLocated read
  refine ⟨sound.files, ?_, ?_, ?_, ?_⟩
  · simpa [Frame.ofSource] using sound.mirrors
  · simpa using sound.depth
  · refine List.nodup_cons.mpr ⟨?_, sound.distinct⟩
    intro again
    obtain ⟨q, inStack, same⟩ := List.mem_map.mp again
    exact fresh q inStack same
  · intro q mem
    rcases List.mem_cons.mp mem with rfl | mem
    · exact ⟨key, List.mem_map.mpr ⟨(key, bytes), inFiles, rfl⟩, located⟩
    · exact sound.listed q mem

end Sound

def Ends {α : Type} (pre : Prop) (p : ReadM α) (r : Reader) (stack : List String)
    (post : α → Reader → List String → Prop) : Prop :=
  ∃ res events, Logs (p.run r) res events ∧ (pre → OpensFresh L.files stack events →
    (∀ h, res = .error h → h.Proper) ∧ ∀ a r', res = .ok (a, r') → post a r' (openAfter stack events))

namespace Ends

variable {L} {α β : Type} {pre pre' : Prop} {p : ReadM α} {r : Reader} {stack : List String}
  {post post' : α → Reader → List String → Prop}

theorem mono (h : Ends L pre p r stack post) (weaker : pre' → pre)
    (stronger : pre' → ∀ a r' stack', post a r' stack' → post' a r' stack') :
    Ends L pre' p r stack post' := by
  obtain ⟨res, events, logs, good⟩ := h
  refine ⟨res, events, logs, fun holds fresh => ?_⟩
  obtain ⟨stops, ends⟩ := good (weaker holds) fresh
  exact ⟨stops, fun a r' same => stronger holds a r' _ (ends a r' same)⟩

theorem bind {f : α → ReadM β} {mid : α → Reader → List String → Prop}
    {post : β → Reader → List String → Prop} (first : Ends L pre p r stack mid)
    (next : ∀ a r' stack', Ends L (mid a r' stack') (f a) r' stack' post) :
    Ends L pre (p >>= f) r stack post := by
  obtain ⟨res, events, logs, good⟩ := first
  rcases res with h | ⟨a, r'⟩
  · refine ⟨.error h, events, ?_, fun holds fresh => ⟨?_, by simp⟩⟩
    · rw [StateT.run_bind]
      exact logsBindError logs
    · intro h' same
      cases same
      exact (good holds fresh).1 h rfl
  · obtain ⟨res', events', logs', good'⟩ := next a r' (openAfter stack events)
    refine ⟨res', events ++ events', ?_, fun holds fresh => ?_⟩
    · rw [StateT.run_bind]
      exact logsBind logs logs'
    rw [opensFreshAppend] at fresh
    have between := (good holds fresh.1).2 a r' rfl
    rw [openAfterAppend]
    exact good' between fresh.2

theorem under (h : Ends L pre p r stack post) (weaker : pre' → pre) : Ends L pre' p r stack post :=
  h.mono weaker fun _ _ _ _ done => done

theorem carry (h : Ends L pre p r stack post) (weaker : pre' → pre) :
    Ends L pre' p r stack fun a r' stack' => pre' ∧ post a r' stack' :=
  h.mono weaker fun holds _ _ _ done => ⟨holds, done⟩

theorem reading {f : α → ReadM β} {a : α} {post : β → Reader → List String → Prop} (reads : Logs (p.run r) (.ok (a, r)) [])
    (next : Ends L pre (f a) r stack post) : Ends L pre (p >>= f) r stack post := by
  obtain ⟨res, events, logs, good⟩ := next
  refine ⟨res, events, ?_, good⟩
  rw [StateT.run_bind]
  simpa using logsBind reads logs

theorem ofLogs {a : α} {r' : Reader} (logs : Logs (p.run r) (.ok (a, r')) [])
    (holds : pre → post a r' stack) : Ends L pre p r stack post :=
  ⟨_, [], logs, fun h _ => ⟨by simp, fun _ _ same => by cases same; exact holds h⟩⟩

theorem ofPure {a : α} (holds : pre → post a r stack) : Ends L pre (pure a) r stack post :=
  ofLogs (logsPure _) holds

theorem ofError {e : MakeError} (logs : Logs (p.run r) (.error (.error e)) []) :
    Ends L pre p r stack post :=
  ⟨_, [], logs, fun _ _ => ⟨fun _ same => by cases same; trivial, by simp⟩⟩

end Ends

section Steps

variable {L} {β : Type} {pre : Prop} {stack : List String} {r : Reader} {phi : Nat}
  {post : β → Reader → List String → Prop}

theorem readyMono {phi' : Nat} (ready : Ready L stack r phi) (le : phi ≤ phi') :
    Ready L stack r phi' := by
  obtain ⟨sound, pending, tracks, weight⟩ := ready
  exact ⟨sound, pending, tracks, le_trans weight le⟩

theorem readyStream {r' : Reader} (ready : Ready L stack r phi) (same : r'.stream = r.stream) :
    Ready L stack r' phi := by
  unfold Ready
  rw [same]
  exact ready

theorem waitingStream {r' : Reader} (waiting : Waiting L stack r phi) (same : r'.stream = r.stream) :
    Waiting L stack r' phi := by
  unfold Waiting
  rw [same]
  exact waiting

theorem afterReady {line : String} (after : After L stack r line phi) (plain : isInclude line = false) :
    Ready L stack r phi := by
  simpa [After, plain] using after

theorem atEndThen {f : Bool → ReadM β} (next : Ends L pre (f r.stream.eof) r stack post) :
    Ends L pre (atEnd >>= f) r stack post :=
  Ends.reading (show Logs (atEnd.run r) (.ok (r.stream.eof, r)) [] from logsPure _) next

theorem peekThen {f : String → ReadM β} (next : Ends L pre (f r.stream.next) r stack post) :
    Ends L pre (peek >>= f) r stack post :=
  Ends.reading (show Logs (peek.run r) (.ok (r.stream.next, r)) [] from logsPure _) next

theorem placeThen {f : Option Location → ReadM β} (next : Ends L pre (f r.stream.loc) r stack post) :
    Ends L pre (place >>= f) r stack post :=
  Ends.reading (show Logs (place.run r) (.ok (r.stream.loc, r)) [] from logsPure _) next

theorem getThen {f : Reader → ReadM β} (next : Ends L pre (f r) r stack post) :
    Ends L pre (get >>= f) r stack post :=
  Ends.reading (show Logs ((get : ReadM Reader).run r) (.ok (r, r)) [] from logsPure _) next

theorem failEnds (f : Fault) (loc : Option Location) : Ends L pre (fail f loc) r stack post :=
  Ends.ofError (logsThrow _)

theorem failThen {γ : Type} {g : γ → ReadM β} (f : Fault) (loc : Option Location) :
    Ends L pre (fail f loc >>= g) r stack post :=
  Ends.ofError (by rw [StateT.run_bind]; exact logsBindError (logsThrow _))

theorem assignRun (raw value : String) :
    (assign raw value).run r =
      pure ((r.context.set raw value).1, { r with context := (r.context.set raw value).2 }) := by
  simp [assign]

theorem unassignRun (name : String) :
    (unassign name).run r = pure ((), { r with context := r.context.unset name }) := by
  simp [unassign]

theorem readLineRun (d : Option Bool) :
    (readLine d).run r = (r.stream.readLine d >>= fun x => pure (x.1, { r with stream := x.2 })) := by
  simp [readLine]

theorem readLineEnds (d : Option Bool) :
    Ends L (Ready L stack r phi ∧ r.stream.eof = false) (readLine d) r stack
      fun line r' stack' => line = r.stream.next ∧ 0 < phi ∧
        if d.getD (isInclude line) then Waiting L stack' r' (phi - 1) else Ready L stack' r' (phi - 1) := by
  unfold Ends
  rw [readLineRun]
  by_cases waits : d.getD (isInclude r.stream.next) = true
  · -- the read waits: nothing moves, and the stream's files hold what follows the line
    have reads : Logs (r.stream.readLine d) (.ok (r.stream.next, { r.stream with loc := r.stream.nextLoc })) [] := by
      rw [LineStream.readLine]
      simp only [waits, if_true]
      exact logsPure _
    refine ⟨_, [], logsThen reads (logsPure _), fun pre _ => ⟨by simp, ?_⟩⟩
    obtain ⟨⟨sound, pending, tracks, weight⟩, more⟩ := pre
    rintro line r' same
    simp only [Except.ok.injEq, Prod.mk.injEq] at same
    obtain ⟨rfl, rfl⟩ := same
    cases tracks with
    | ended _ eof _ => simp [eof] at more
    | ahead first _ _ _ frames =>
      have cost := L.weightNext first
      rw [← frames, List.length_map] at cost
      have pos := L.costPos r.stream.frames.length
      refine ⟨rfl, by omega, ?_⟩
      simp only [waits, if_true, openAfter]
      exact ⟨sound.congr rfl rfl, by simp only; omega⟩
  · -- the read moves on: the stream reads ahead, closing the files it used up
    have moves : d.getD (isInclude r.stream.next) = false := by simpa using waits
    obtain ⟨s', closed, ahead, reads⟩ := advanceReads { r.stream with loc := r.stream.nextLoc }
    have run : r.stream.readLine d =
        ({ r.stream with loc := r.stream.nextLoc }.advance >>= fun s' => pure (r.stream.next, s')) := by
      rw [LineStream.readLine]
      simp only [moves, Bool.false_eq_true, if_false]
    rw [run]
    rcases reads with reads | ⟨-, e, added, stops⟩
    · refine ⟨_, closed.map Notice.closedFile, logsThen (logsThen reads (logsPure _)) (logsPure _),
        fun pre _ => ⟨by simp, ?_⟩⟩
      obtain ⟨⟨sound, pending, tracks, weight⟩, more⟩ := pre
      rintro line r' same
      simp only [Except.ok.injEq, Prod.mk.injEq] at same
      obtain ⟨rfl, rfl⟩ := same
      cases tracks with
      | ended _ eof _ => simp [eof] at more
      | @ahead text place rest first _ _ _ frames =>
        have cost := L.weightNext first
        have pos := L.costPos rest.length
        refine ⟨rfl, by omega, ?_⟩
        simp only [moves, Bool.false_eq_true, if_false, openAfterCloses]
        have tracks' := ahead.tracks
        simp only [frames] at tracks'
        exact ⟨(sound.relocate r.stream.nextLoc).readAhead ahead, _,
          tracks', by omega⟩
    · refine ⟨_, added, logsBindError (logsBindError stops), fun _ _ => ⟨?_, by simp⟩⟩
      intro h same
      cases same
      trivial

theorem openIncludeRun (path : String) :
    (openInclude path).run r = (r.stream.includeFile path >>= fun s => pure ((), { r with stream := s })) := by
  simp [openInclude]

theorem openIncludeEnds (path : String) :
    Ends L (Waiting L stack r phi) (openInclude path) r stack fun _ r' stack' => Ready L stack' r' phi := by
  unfold Ends
  rw [openIncludeRun]
  rcases read : r.stream.files.read (Path.normalJoin r.stream.workDir path) with why | bytes
  · refine ⟨_, [], logsBindError (includeFails read), fun _ _ => ⟨?_, by simp⟩⟩
    intro h same
    cases same
    by_cases nul : why = .nulInPath
    · subst nul
      simpa [Halt.Proper] using FileSystem.readNul read
    · simp [nul, Halt.Proper]
  · obtain ⟨s', closed, ahead, reads⟩ := includeOpens read
    rcases reads with reads | ⟨-, e, added, stops⟩
    · refine ⟨_, _, logsThen reads (logsPure _), fun ⟨sound, weight⟩ fresh => ⟨by simp, ?_⟩⟩
      rintro _ r' same
      simp only [Except.ok.injEq, Prod.mk.injEq] at same
      obtain ⟨-, rfl⟩ := same
      simp only [OpensFresh] at fresh
      simp only [openAfter, openAfterCloses]
      rw [sound.files] at read
      -- the file is opened afresh: the stack stays within the limits, and the file's lines are few
      have opened := sound.opened read fresh.1
      obtain ⟨key, -, inFiles⟩ := FileSystem.readLocated read
      have few := L.wide _ inFiles
      have room := opened.bounded
      simp only [List.length_cons] at room
      have cheaper := L.includeCheaper few
        (show (r.stream.frames.map Frame.view).length + 1 ≤ L.depth by simpa using room)
      have tracks := ahead.tracks
      simp only [List.map_cons, Frame.viewOfSource] at tracks
      refine ⟨opened.readAhead ahead, _, tracks, ?_⟩
      simp only [Limits.weight, List.length_map] at cheaper weight ⊢
      omega
    · refine ⟨_, added, logsBindError stops, fun _ _ => ⟨?_, by simp⟩⟩
      intro h same
      cases same
      trivial

end Steps

structure StepClosed (P : {α : Type} → ReadM α → Prop) : Prop where
  ofPure : ∀ {α : Type} (a : α), P (pure a : ReadM α)
  bind : ∀ {α β : Type} {p : ReadM α} {f : α → ReadM β}, P p → (∀ a, P (f a)) → P (p >>= f)
  ofFail : ∀ {α : Type} (f : Fault) (loc : Option Location), P (Parse.fail f loc : ReadM α)
  ofNote : ∀ n : Notice, n.isFileEvent = false → P (Parse.note n)
  assign : ∀ raw value : String, P (Parse.assign raw value)
  unassign : ∀ name : String, P (Parse.unassign name)
  ofGet : ∀ {α : Type} {f : Reader → ReadM α},
    (∀ r (s : LineStream), s.files = r.stream.files → f { r with stream := s } = f r) → (∀ r, P (f r)) →
      P (get >>= f)

namespace StepClosed

variable {P : {α : Type} → ReadM α → Prop}

theorem exportDirective (closed : StepClosed P) (d : Directive) (line : String) (loc : Option Location) :
    P (Parse.exportDirective d line loc) := by
  unfold Parse.exportDirective
  dsimp only
  split
  · exact closed.ofFail _ _
  split
  · exact closed.bind (closed.unassign _) fun _ => closed.ofPure _
  split
  · split
    · exact closed.ofFail _ _
    · exact closed.bind (closed.assign _ _) fun _ => closed.ofPure _
  · exact closed.ofFail _ _

theorem manifestPath (closed : StepClosed P) (loc : Option Location) (words : List String) :
    P (Parse.manifestPath loc words) := by
  induction words with
  | nil => exact closed.ofPure _
  | cons w rest ih =>
    unfold Parse.manifestPath
    split
    · split
      · exact closed.ofPure _
      · exact closed.bind (closed.ofNote _ rfl) fun _ => closed.ofPure _
    split
    · exact closed.ofPure _
    · exact ih

theorem manifestDirectory (closed : StepClosed P) (cwd path : String) (loc : Option Location) :
    P (Parse.manifestDirectory cwd path loc) := by
  unfold Parse.manifestDirectory
  dsimp only
  -- the step reads the root directory, which is not the stream's
  refine closed.ofGet (fun _ _ _ => by dsimp only) fun r => ?_
  split
  · exact closed.bind (closed.ofNote _ rfl) fun _ => closed.ofPure _
  · exact closed.ofPure _

theorem cargoStep (closed : StepClosed P) (cwd line : String) (words : List String) (loc : Option Location) :
    P (Parse.cargoStep cwd line words loc) := by
  unfold Parse.cargoStep
  split
  · exact closed.bind (closed.ofNote _ rfl) fun _ => closed.ofPure _
  · refine closed.bind (closed.manifestPath _ _) fun found => ?_
    split
    · exact closed.ofPure _
    · exact closed.bind (closed.manifestDirectory _ _ _) fun _ => closed.ofPure _

theorem changeDirectory (closed : StepClosed P) (cwd dir : String) (loc : Option Location) :
    P (Parse.changeDirectory cwd dir loc) := by
  unfold Parse.changeDirectory
  dsimp only
  -- the step asks the stream's file system, which streams over the same files share
  refine closed.ofGet (fun r s files => by simp only [files]) fun r => ?_
  split
  · exact closed.bind (closed.ofNote _ rfl) fun _ => closed.ofPure _
  · exact closed.bind (closed.ofNote _ rfl) fun _ => closed.ofPure _

theorem step (closed : StepClosed P) (cwd raw : String) (loc : Option Location) : P (Parse.step cwd raw loc) := by
  unfold Parse.step
  dsimp only
  split
  · exact closed.ofPure _
  split
  · exact closed.bind (closed.exportDirective _ _ _) fun _ => closed.ofPure _
  · exact closed.bind (closed.exportDirective _ _ _) fun _ => closed.ofPure _
  split
  · exact closed.bind (closed.cargoStep _ _ _ _) fun _ => closed.ofPure _
  · exact closed.bind (closed.changeDirectory _ _ _) fun _ => closed.ofPure _
  · exact closed.bind (closed.ofNote _ rfl) fun _ => closed.ofPure _
  · exact closed.ofPure _

end StepClosed

def Keeps {α : Type} (p : ReadM α) : Prop :=
  ∀ r, ∃ res, Logs (p.run r) res [] ∧ (∀ h, res = .error h → ∃ e, h = .error e) ∧
    ∀ a r', res = .ok (a, r') → r'.stream = r.stream

namespace Keeps

variable {L} {α β : Type}

theorem ends {p : ReadM α} (keeps : Keeps p) {pre : Prop} {r : Reader} {stack : List String} :
    Ends L pre p r stack fun _ r' stack' => r'.stream = r.stream ∧ stack' = stack := by
  obtain ⟨res, logs, stops, same⟩ := keeps r
  refine ⟨res, [], logs, fun _ _ => ⟨?_, fun a r' ok => ⟨same a r' ok, rfl⟩⟩⟩
  intro h error
  obtain ⟨e, rfl⟩ := stops h error
  trivial

theorem ofPure (a : α) : Keeps (pure a : ReadM α) :=
  fun r => ⟨_, logsPure _, by simp, fun _ _ same => by cases same; rfl⟩

theorem bind {p : ReadM α} {f : α → ReadM β} (first : Keeps p) (next : ∀ a, Keeps (f a)) :
    Keeps (p >>= f) := by
  intro r
  obtain ⟨res, logs, stops, same⟩ := first r
  rw [StateT.run_bind]
  rcases res with h | ⟨a, r'⟩
  · exact ⟨_, logsBindError logs, fun h' error => by cases error; exact stops h rfl, by simp⟩
  · obtain ⟨res', logs', stops', same'⟩ := next a r'
    refine ⟨res', logsBind logs logs', stops', fun b r'' ok => ?_⟩
    rw [same' b r'' ok, same a r' rfl]

theorem ofFail (f : Fault) (loc : Option Location) : Keeps (fail f loc : ReadM α) :=
  fun _ => ⟨_, logsThrow _, fun _ error => by cases error; exact ⟨_, rfl⟩, by simp⟩

theorem ofNote (n : Notice) (quiet : n.isFileEvent = false) : Keeps (note n) := by
  intro r
  have added := logsBind (f := fun _ => pure ((), r)) (logsNote n) (logsPure ((), r))
  have none : [n].filter Notice.isFileEvent ++ [] = [] := by simp [quiet]
  rw [none] at added
  exact ⟨_, added, by simp, fun _ _ same => by cases same; rfl⟩

theorem ofGet {f : Reader → ReadM α} (next : ∀ r, Keeps (f r)) : Keeps (get >>= f) :=
  fun r => next r r

theorem place : Keeps Parse.place := fun r => ⟨_, logsPure (r.stream.loc, r), by simp, fun _ _ same => by cases same; rfl⟩

theorem assign (raw value : String) : Keeps (Parse.assign raw value) := by
  intro r
  rw [assignRun]
  generalize r.context.set raw value = result
  exact ⟨_, logsPure _, by simp, fun _ _ same => by cases same; rfl⟩

theorem unassign (name : String) : Keeps (Parse.unassign name) := by
  intro r
  rw [unassignRun]
  exact ⟨_, logsPure _, by simp, fun _ _ same => by cases same; rfl⟩

theorem closed : StepClosed Keeps where
  ofPure := ofPure
  bind := bind
  ofFail := ofFail
  ofNote := ofNote
  assign := assign
  unassign := unassign
  ofGet := fun _ next => ofGet next

theorem andThen {p : ReadM α} {f : α → ReadM β} (keeps : Keeps p) {pre : Prop} {r : Reader}
    {stack : List String} {post : β → Reader → List String → Prop}
    (next : ∀ a r', r'.stream = r.stream → Ends L pre (f a) r' stack post) :
    Ends L pre (p >>= f) r stack post := by
  obtain ⟨res, logs, stops, same⟩ := keeps r
  rcases res with h | ⟨a, r'⟩
  · obtain ⟨e, rfl⟩ := stops h rfl
    exact Ends.ofError (by rw [StateT.run_bind]; exact logsBindError logs)
  · obtain ⟨res', events, logs', good⟩ := next a r' (same a r' rfl)
    refine ⟨res', events, ?_, good⟩
    rw [StateT.run_bind]
    simpa using logsBind logs logs'

theorem ready {p : ReadM α} (keeps : Keeps p) {r : Reader} {stack : List String} {phi : Nat} :
    Ends L (Ready L stack r phi) p r stack fun _ r' stack' => Ready L stack' r' phi := by
  refine keeps.ends.mono id fun ready _ r' stack' ⟨same, stay⟩ => ?_
  subst stay
  exact readyStream ready same

end Keeps

end Parse

end Maketree
