import Mathlib
import Maketree.Proofs.LocatedErrors
import Maketree.Proofs.MirrorStatements
import Maketree.Proofs.CargoDirectories
/-! Where the statements of an included file land: reading with frames below gives what it gives
without them (`Framed`), so the loop that reads an include line puts the file's statements right
after the include's node, unless a line of the file ends the arm it stands in. -/
namespace Maketree

open Journal

namespace LineStream

def onto (s : LineStream) (lower : List Frame) : LineStream := { s with frames := s.frames ++ lower }

def aheadTo (s : LineStream) : Option (String × Location × List Frame) → LineStream
  | none => { s with frames := [], eof := true, next := "", nextLoc := none }
  | some (text, loc, frames) => { s with frames := frames, eof := false, next := text, nextLoc := some loc }

def joined (s : LineStream) (lower : List Frame) (o : Option (String × Location × List Frame)) : LineStream :=
  if s.eof then s.aheadTo o else s.onto lower

theorem advanceAheadTo (s : LineStream) : s.advance = nextOf s.frames >>= fun o => pure (s.aheadTo o) := by
  unfold advance
  congr 1
  funext o
  rcases o with _ | ⟨text, loc, frames⟩ <;> rfl

theorem nextOfAppend (frames lower : List Frame) :
    nextOf (frames ++ lower) = nextOf frames >>= fun o => match o with
      | none => nextOf lower
      | some (text, loc, frames') => pure (some (text, loc, frames' ++ lower)) := by
  induction frames with
  | nil => simp [nextOf]
  | cons f frames ih =>
    simp only [List.cons_append, nextOf, bind_assoc]
    congr 1
    funext found
    rcases found with _ | ⟨text, loc, f'⟩
    · simp [ih]
    · simp

theorem joinedOnto {s : LineStream} (more : s.eof = false) (lower : List Frame)
    (o : Option (String × Location × List Frame)) : s.joined lower o = s.onto lower := by
  simp [joined, more]

section Below

variable {lower : List Frame} {o : Option (String × Location × List Frame)}

theorem advanceJoined (resumes : Gives (nextOf lower) (.ok o)) {s s' : LineStream} (reads : Gives s.advance (.ok s')) :
    Gives (s.onto lower).advance (.ok (s'.joined lower o)) := by
  rw [advanceAheadTo] at reads ⊢
  obtain ⟨found, gives, ahead⟩ := givesBindOk (nextOfDecided s.frames) (fun _ => .ofPure _) reads
  obtain rfl := givesUnique (givesPure _) ahead |>.symm |> Except.ok.inj
  rw [show (s.onto lower).frames = s.frames ++ lower from rfl, nextOfAppend, bind_assoc]
  refine givesBind gives ?_
  rcases found with _ | ⟨text, loc, frames⟩
  · exact givesBind resumes (by cases o <;> exact givesPure _)
  · exact givesBind (givesPure _) (givesPure _)

theorem readLineJoined (resumes : Gives (nextOf lower) (.ok o)) {s : LineStream} (more : s.eof = false)
    {d : Option Bool} {line : String} {s' : LineStream} (reads : Gives (s.readLine d) (.ok (line, s'))) :
    Gives ((s.onto lower).readLine d) (.ok (line, s'.joined lower o)) := by
  unfold readLine at reads ⊢
  by_cases waits : d.getD (isInclude s.next) = true
  · simp only [waits, if_true] at reads
    obtain ⟨rfl, rfl⟩ := Prod.mk.inj (Except.ok.inj (givesUnique (givesPure _) reads))
    rw [show (s.onto lower).next = s.next from rfl, if_pos waits, joinedOnto (s := { s with loc := s.nextLoc }) more]
    exact givesPure _
  · simp only [waits, Bool.false_eq_true, if_false] at reads
    obtain ⟨s₁, moved, read⟩ := givesBindOk (advanceDecided _) (fun _ => .ofPure _) reads
    obtain ⟨rfl, rfl⟩ := Prod.mk.inj (Except.ok.inj (givesUnique (givesPure _) read))
    rw [show (s.onto lower).next = s.next from rfl, if_neg waits]
    exact givesBind (advanceJoined resumes moved) (givesPure _)

theorem pushOnto (s : LineStream) (path : String) :
    (s.onto lower).push path = s.push path >>= fun s₁ => pure (s₁.onto lower) := by
  unfold push
  rw [show (s.onto lower).files = s.files from rfl]
  split <;> simp [onto]

theorem includeFileJoined (resumes : Gives (nextOf lower) (.ok o)) {s s' : LineStream} {path : String}
    (reads : Gives (s.includeFile path) (.ok s')) : Gives ((s.onto lower).includeFile path) (.ok (s'.joined lower o)) := by
  unfold includeFile at reads ⊢
  rw [show (s.onto lower).workDir = s.workDir from rfl, pushOnto, bind_assoc]
  obtain ⟨s₁, pushed, ahead⟩ := givesBindOk (pushDecided _ _) (fun s => advanceDecided s) reads
  exact givesBind pushed (by simpa only [pure_bind] using advanceJoined resumes ahead)

theorem joinedLoc (s : LineStream) (lower : List Frame) (o : Option (String × Location × List Frame)) :
    (s.joined lower o).loc = s.loc := by
  unfold joined
  split
  · cases o <;> rfl
  · rfl

theorem joinedFiles (s : LineStream) (lower : List Frame) (o : Option (String × Location × List Frame)) :
    (s.joined lower o).files = s.files := by
  unfold joined
  split
  · cases o <;> rfl
  · rfl

def nextText : Option (String × Location × List Frame) → String
  | none => ""
  | some (text, _, _) => text

theorem aheadToNext (s : LineStream) (o : Option (String × Location × List Frame)) :
    (s.aheadTo o).next = nextText o := by
  cases o <;> rfl

end Below

theorem readLineStaysAhead {s : LineStream} (more : s.eof = false) (d : Option Bool) :
    Lands (s.readLine d) (fun x _ => x.1 = s.next ∧ (d.getD (isInclude x.1) = true → x.2.eof = false)) ⊤ := by
  unfold readLine
  dsimp only
  split
  · exact .ofPure ⟨rfl, fun _ => more⟩
  · rename_i advances
    exact ((advanceLands _).mono (fun _ _ _ => trivial) fun _ _ => trivial).bind fun _ _ _ =>
      .ofPure ⟨rfl, fun waits => absurd waits advances⟩

end LineStream

namespace Parse

open LineStream (nextText)
open Text

theorem readLineStaysAhead {r : Reader} (more : r.stream.eof = false) (d : Option Bool) :
    Runs (readLine d) r
      (fun line r' _ => line = r.stream.next ∧ (d.getD (isInclude line) = true → r'.stream.eof = false)) ⊤ := by
  unfold Runs
  rw [readLineRun]
  exact (LineStream.readLineStaysAhead more d).bind fun _ _ waits => .ofPure waits

def Reader.joined (r : Reader) (lower : List Frame) (o : Option (String × Location × List Frame)) : Reader :=
  { r with stream := r.stream.joined lower o }

section Framed

variable (lower : List Frame) (o : Option (String × Location × List Frame)) {α β : Type}

def Joins (p : ReadM α) (r : Reader) (a : α) (r₁ : Reader) : Prop :=
  Gives (p.run (r.joined lower o)) (.ok (a, r₁.joined lower o))

/-- What `p` gives from `r`, it gives from `r` read on into the frames `lower`. -/
def Framed (p : ReadM α) (r : Reader) : Prop :=
  Runs p r (fun a r₁ _ => Joins lower o p r a r₁) ⊤

end Framed

theorem Reader.joinedTwin (r : Reader) (lower : List Frame) (o : Option (String × Location × List Frame)) :
    Twin r (r.joined lower o) :=
  have files : (r.joined lower o).stream.files = r.stream.files := LineStream.joinedFiles _ _ _
  ⟨rfl, by rw [files], by rw [files]⟩

theorem Reader.joinedOnto {r : Reader} (more : r.stream.eof = false) (lower : List Frame)
    (o : Option (String × Location × List Frame)) : (r.joined lower o).stream = r.stream.onto lower :=
  LineStream.joinedOnto more lower o

namespace Framed

variable {lower : List Frame} {o : Option (String × Location × List Frame)} {α β : Type} {p : ReadM α}
  {r : Reader}

theorem joinsBind {f : α → ReadM β} {a : α} {b : β} {r₁ r₂ : Reader} (first : Joins lower o p r a r₁)
    (next : Joins lower o (f a) r₁ b r₂) : Joins lower o (p >>= f) r b r₂ := by
  unfold Joins at *
  rw [StateT.run_bind]
  exact givesBind first next

theorem ofPure (a : α) : Framed lower o (pure a) r := Runs.ofPure (givesPure _)

theorem ofThrow (h : Halt) : Framed lower o (throw h : ReadM α) r := Runs.ofThrow trivial

theorem ofFail (f : Fault) (loc : Option Location) : Framed lower o (fail f loc : ReadM α) r :=
  Runs.ofFail _ _ trivial

theorem bind {f : α → ReadM β} (first : Framed lower o p r)
    (next : ∀ a r₁, Joins lower o p r a r₁ → Framed lower o (f a) r₁) : Framed lower o (p >>= f) r :=
  Runs.bind first fun a r₁ _ joins => (next a r₁ joins).mono fun _ _ _ joins₂ => joinsBind joins joins₂

theorem bindWith {f : α → ReadM β} {side : α → Reader → List Notice → Prop} {stop : Halt → Prop}
    (known : Runs p r side stop) (first : Framed lower o p r)
    (next : ∀ a r₁ events, side a r₁ events → Joins lower o p r a r₁ → Framed lower o (f a) r₁) :
    Framed lower o (p >>= f) r :=
  Runs.bind ((known.and first).stops fun _ _ => trivial) fun a r₁ events both =>
    (next a r₁ events both.1 both.2).mono fun _ _ _ joins₂ => joinsBind both.2 joins₂

theorem ofRun {q : ReadM α} (alone : p.run r = q.run r)
    (joined : p.run (r.joined lower o) = q.run (r.joined lower o)) (h : Framed lower o q r) : Framed lower o p r := by
  unfold Framed Joins Runs at *
  rw [alone, joined]
  exact h

theorem placeThen {g : Option Location → ReadM α} (next : Framed lower o (g r.stream.loc) r) :
    Framed lower o (place >>= g) r :=
  ofRun (placeRun g r) (by rw [placeRun]; exact congrArg (fun loc => (g loc).run _) (LineStream.joinedLoc _ _ _))
    next

theorem noteThen {n : Notice} {g : Unit → ReadM α} (quiet : n.isFileEvent = false) (next : Framed lower o (g ()) r) :
    Framed lower o (note n >>= g) r :=
  Runs.noteThen quiet (next.mono fun _ _ _ joins => by
    unfold Joins at *
    rw [StateT.run_bind]
    exact givesBind (givesBind (f := fun _ => pure ((), r.joined lower o)) (givesNote n) (givesPure _)) joins)

theorem atEndThen {g : Bool → ReadM α} (more : r.stream.eof = false) (next : Framed lower o (g false) r) :
    Framed lower o (atEnd >>= g) r :=
  ofRun (by rw [atEndRun, more]) (by
    rw [atEndRun, Reader.joinedOnto more lower o]
    exact congrArg (fun b => (g b).run _) more) next

theorem endedFails {γ : Type} {g : Bool → ReadM α} {f : Fault} {loc : Option Location} {k : γ → ReadM α}
    (ended : r.stream.eof = true) (fails : g true = fail f loc >>= k) : Framed lower o (atEnd >>= g) r :=
  Runs.atEndThen (by rw [ended, fails]; exact Runs.failThen _ _ trivial)

theorem peekThen {g : String → ReadM α} (more : r.stream.eof = false) (next : Framed lower o (g r.stream.next) r) :
    Framed lower o (peek >>= g) r :=
  ofRun (peekRun g r) (by
    rw [peekRun, Reader.joinedOnto more lower o]
    rfl) next

theorem ofAlike (alike : Alike p p) : Framed lower o p r := by
  refine (Runs.ofKeeps alike.1).withGives.mono fun a r₁ _ ⟨gives, same, _⟩ => ?_
  have kept : r₁ = { r with context := r₁.context } := readerOfStream same
  rw [kept] at gives ⊢
  exact alike.2 r (r.joined lower o) (r.joinedTwin lower o) a r₁.context gives

theorem bindAlike {f : α → ReadM β} (alike : Alike p p)
    (next : ∀ a r₁, r₁.stream = r.stream → Joins lower o p r a r₁ → Framed lower o (f a) r₁) :
    Framed lower o (p >>= f) r :=
  bindWith (Runs.ofKeeps alike.1) (ofAlike alike) fun a r₁ _ kept joins => next a r₁ kept.1 joins

theorem joins (h : Framed lower o p r) {a : α} {r₁ : Reader} (gives : Gives (p.run r) (.ok (a, r₁))) :
    Joins lower o p r a r₁ := by
  obtain ⟨_, joins⟩ := h.givesHolds gives
  exact joins

variable (resumes : Gives (LineStream.nextOf lower) (.ok o))
include resumes

theorem readLine (poised : r.stream.Poised) (more : r.stream.eof = false) (d : Option Bool) :
    Framed lower o (Parse.readLine d) r :=
  ((readLineRuns poised d).withGives.stops fun _ _ => trivial).mono fun line r₁ _ ⟨gives, _⟩ => by
    unfold Joins
    rw [readLineRun] at gives ⊢
    obtain ⟨⟨line', s₁⟩, read, done⟩ := givesBindOk (LineStream.readLineDecided _ _) (fun _ => .ofPure _) gives
    obtain ⟨rfl, rfl⟩ := Prod.mk.inj (Except.ok.inj (givesUnique (givesPure _) done))
    rw [Reader.joinedOnto more lower o]
    exact givesBind (LineStream.readLineJoined resumes more read) (givesPure _)

theorem openInclude (more : r.stream.eof = false) (path : String) : Framed lower o (Parse.openInclude path) r :=
  (openIncludeRuns path r).withGives.mono fun _ r₁ _ ⟨gives, _⟩ => by
    unfold Joins
    rw [openIncludeRun] at gives ⊢
    obtain ⟨s₁, opened, done⟩ := givesBindOk (LineStream.includeFileDecided _ _) (fun _ => .ofPure _) gives
    obtain ⟨-, rfl⟩ := Prod.mk.inj (Except.ok.inj (givesUnique (givesPure _) done))
    rw [Reader.joinedOnto more lower o]
    exact givesBind (LineStream.includeFileJoined resumes opened) (givesPure _)

theorem includeDirective (more : r.stream.eof = false) (line : String) :
    Framed lower o (Parse.includeDirective line) r := by
  unfold Parse.includeDirective
  split
  · rename_i path extra found
    have opens : Framed lower o (Parse.openInclude path >>= fun _ => pure (Statement.includeFile path)) r :=
      (openInclude resumes more path).bind fun _ _ _ => ofPure _
    split
    · exact placeThen (noteThen rfl opens)
    · exact opens
  · exact placeThen (ofFail _ _)

theorem statementThen {fuel : Nat} {k : Option Statement → ReadM β} (poised : r.stream.Poised)
    (more : r.stream.eof = false)
    (onStatement : ∀ line r₁, Placed r₁ → (isInclude line = true → r₁.stream.eof = false) →
      Framed lower o (Parse.statement fuel line) r₁)
    (next : ∀ s r₂, Placed r₂ → Framed lower o (k s) r₂) :
    Framed lower o (Parse.readLine none >>= fun line => Parse.statement fuel line >>= k) r := by
  refine bindWith ((readLinePlaced poised more _).and (readLineStaysAhead more _)) (readLine resumes poised more _)
    fun line r₁ _ read _ => ?_
  obtain ⟨placed₁, -, waits₁⟩ := read
  exact bindWith ((statementPlaced fuel).1 line r₁ placed₁) (onStatement line r₁ placed₁ waits₁)
    fun s r₂ _ placed₂ _ => next s r₂ placed₂

variable (untabbed : startsWithTab (nextText o) = false)
include untabbed

theorem recipeSteps : ∀ (fuel : Nat) (cwd : String) (r : Reader), Placed r →
    Framed lower o (Parse.recipeSteps fuel cwd) r
  | 0, _, _, _ => ofThrow _
  | fuel + 1, cwd, r, placed => by
    rw [Parse.recipeSteps]
    cases more : r.stream.eof with
    | true =>
      have drained : r.stream.next = "" := placed.poised.drained more
      refine ofRun (q := pure []) (by rw [peekRun, drained]; rfl) ?_ (ofPure _)
      rw [peekRun, show (r.joined lower o).stream = r.stream.aheadTo o from if_pos more, LineStream.aheadToNext]
      simp only [startsWithTab] at untabbed
      simp only [untabbed, Bool.false_eq_true, if_false]
    | false =>
      refine peekThen more ?_
      split
      · refine bindWith (readLinePlaced placed.poised more _) (readLine resumes placed.poised more _)
          fun line r₁ _ placed₁ _ => ?_
        split
        · exact recipeSteps fuel cwd r₁ placed₁
        · refine placeThen (bindAlike (Alike.step _ _ _ _) fun x r₂ kept _ => ?_)
          exact (recipeSteps fuel x.2 r₂ (placed₁.ofStream kept)).bind fun _ _ _ => ofPure _
      · exact ofPure _

theorem target (fuel : Nat) (line : String) (colon : ':' ∈ (trim line).toList) (r : Reader) (placed : Placed r) :
    Framed lower o (Parse.target fuel line) r := by
  obtain ⟨loc, here⟩ := Option.ne_none_iff_exists'.mp placed.placed
  have here' : (r.joined lower o).stream.loc = some loc := (LineStream.joinedLoc _ _ _).trans here
  refine ofRun (targetRun fuel line colon r here) (targetRun fuel line colon (r.joined lower o) here') ?_
  split
  · exact ofFail _ _
  · refine bindAlike (Alike.headerStep _ _ _ _) fun x r₁ kept _ => ?_
    exact (recipeSteps resumes untabbed fuel x.2 r₁ (placed.ofStream kept)).bind fun _ _ _ => ofPure _

theorem constructRead (fuel : Nat) (line : String) (arms : ∀ r, Placed r → Framed lower o (arm fuel line) r) :
    ∀ (c : Construct) (r : Reader), Placed r → (c = .include → r.stream.eof = false) →
      (c = .rule → ':' ∈ (trim line).toList) → Framed lower o (c.read fuel line) r
  | .comment, _, _, _, _ => ofPure _
  | .exportLine _, _, _, _, _ => placeThen (bind (ofAlike (Alike.exportDirective _ _ _ _)) fun _ _ _ => ofPure _)
  | .assignment, _, _, _, _ => bind (ofAlike (Alike.assign _ _)) fun _ _ _ => ofPure _
  | .include, _, _, waits, _ => bind (includeDirective resumes (waits rfl) _) fun _ _ _ => ofPure _
  | .conditional, r, placed, _, _ => bind (arms r placed) fun _ _ _ => ofPure _
  | .stray _, _, _, _, _ => placeThen (ofFail _ _)
  | .rule, r, placed, _, colon => bind (target resumes untabbed fuel line (colon rfl) r placed) fun _ _ _ => ofPure _
  | .command, _, _, _, _ => placeThen (noteThen rfl (ofPure _))

theorem statement (fuel : Nat) :
    (∀ raw r, Placed r → (isInclude raw = true → r.stream.eof = false) →
      Framed lower o (Parse.statement fuel raw) r) ∧
    (∀ line r, Placed r → Framed lower o (arm fuel line) r) ∧
    (∀ start r, Placed r → Framed lower o (armBody fuel start) r) ∧
    (∀ rest start r, Placed r → (isInclude rest = true → r.stream.eof = false) →
      Framed lower o (elseArm fuel rest start) r) ∧
    (∀ start r, Placed r → Framed lower o (elseBody fuel start) r) := by
  induction fuel with
  | zero =>
    exact ⟨fun _ _ _ _ => ofThrow _, fun _ _ _ => ofThrow _, fun _ _ _ => ofThrow _,
      fun _ _ _ _ _ => ofThrow _, fun _ _ _ => ofThrow _⟩
  | succ fuel ih =>
    obtain ⟨onStatement, onArm, onBody, onElseArm, onElseBody⟩ := ih
    refine ⟨fun raw r placed waits => ?_, fun line r placed => ?_, fun start r placed => ?_,
      fun rest start r placed waits => ?_, fun start r placed => ?_⟩
    · rw [statementDispatch]
      exact constructRead resumes untabbed fuel _ (onArm _) _ r placed
        (fun included => waits ((constructInclude raw).mp included))
        fun rule => ruleHeaderColon (constructRuleHeader rule)
    · rw [arm]
      refine placeThen ?_
      split
      · exact (onBody _ r placed).bind fun _ _ _ => ofPure _
      · exact ofFail _ _
    · rw [armBody]
      cases more : r.stream.eof with
      | true => exact endedFails more rfl
      | false =>
        refine atEndThen more ?_
        dsimp only
        rw [if_neg Bool.false_ne_true]
        refine peekThen more ?_
        split
        · exact (readLine resumes placed.poised more _).bind fun _ _ _ => ofPure _
        · refine bindWith ((readLinePlaced placed.poised more _).and (readLineStaysAhead more _))
            (readLine resumes placed.poised more _) fun _ r₁ _ read _ => ?_
          obtain ⟨placed₁, -, waits₁⟩ := read
          split
          · exact (onArm _ r₁ placed₁).bind fun _ _ _ => ofPure _
          · exact (onArm _ r₁ placed₁).bind fun _ _ _ => ofPure _
          · -- the line after an else is read as the else line says: waiting when its rest is an include
            have waits₂ : isInclude (Directive.orElse.argument (trim r.stream.next)) = true → r₁.stream.eof = false := by
              simpa only [Option.getD_some] using waits₁
            exact (onElseArm _ start r₁ placed₁ waits₂).bind fun _ _ _ => ofPure _
        · exact statementThen resumes placed.poised more onStatement fun _ r₂ placed₂ =>
            (onBody start r₂ placed₂).bind fun _ _ _ => ofPure _
    · rw [elseArm]
      dsimp only
      split
      · rw [pure_bind]
        exact (onElseBody start r placed).bind fun _ _ _ => ofPure _
      · exact bindWith ((statementPlaced fuel).1 rest r placed) (onStatement rest r placed waits)
          fun _ r₁ _ placed₁ _ => (onElseBody start r₁ placed₁).bind fun _ _ _ => ofPure _
    · rw [elseBody]
      cases more : r.stream.eof with
      | true => exact endedFails more rfl
      | false =>
        refine atEndThen more ?_
        dsimp only
        rw [if_neg Bool.false_ne_true]
        refine peekThen more ?_
        split
        · exact (readLine resumes placed.poised more _).bind fun _ _ _ => ofPure _
        · exact statementThen resumes placed.poised more onStatement fun _ r₂ placed₂ =>
            (onElseBody start r₂ placed₂).bind fun _ _ _ => ofPure _

end Framed

section Splice

variable {β : Type}

variable {lower : List Frame} {o : Option (String × Location × List Frame)}
  (resumes : Gives (LineStream.nextOf lower) (.ok o)) (untabbed : startsWithTab (nextText o) = false)
include resumes untabbed

end Splice

def Reader.alone (r : Reader) : Reader := { r with stream := { r.stream with frames := [] } }

section Alone

variable {β : Type} {r r' : Reader} {o : Option (String × Location × List Frame)} {n : Nat} {ss : List Statement}

end Alone

end Parse

end Maketree
