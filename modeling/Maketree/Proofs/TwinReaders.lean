import Mathlib
import Maketree.Proofs.Rules
/-! Readers that reading tells apart only by what their streams have to give. -/
namespace Maketree

namespace FileSystem

variable {fs fs' : FileSystem}

theorem entryAtDirectory (dirs : fs'.directories = fs.directories) (comps : List String) :
    fs'.entryAt comps = some .directory ↔ fs.entryAt comps = some .directory := by
  unfold entryAt
  rw [dirs]
  split <;> simp

theorem walkDirectory (dirs : fs'.directories = fs.directories) (here comps : List String) :
    fs'.walk here comps = .ok .directory ↔ fs.walk here comps = .ok .directory := by
  induction comps generalizing here with
  | nil => simp [walk]
  | cons c rest ih =>
    rw [walk, walk]
    split
    · exact ih here
    split
    · exact ih here.dropLast
    split
    · simp
    -- a component that is no directory on one system is none on the other
    have same := entryAtDirectory dirs (here ++ [c])
    rcases entry' : fs'.entryAt (here ++ [c]) with _ | _ | content' <;>
      rcases entry : fs.entryAt (here ++ [c]) with _ | _ | content <;> simp_all <;> split <;> simp

theorem lookupDirectory (cwd : fs'.cwd = fs.cwd) (dirs : fs'.directories = fs.directories) (p : String) :
    fs'.lookup p = .ok .directory ↔ fs.lookup p = .ok .directory := by
  unfold lookup
  rw [cwd]
  split
  · simp
  split
  · simp
  split
  · simp
  exact walkDirectory dirs [] _

theorem isDirSame (cwd : fs'.cwd = fs.cwd) (dirs : fs'.directories = fs.directories) (p : String) :
    fs'.isDir p = fs.isDir p := by
  have same := lookupDirectory cwd dirs p
  unfold isDir
  generalize fs'.lookup p = found' at same ⊢
  generalize fs.lookup p = found at same ⊢
  rcases found with e | (_ | c) <;> rcases found' with e' | (_ | c') <;> simp_all

end FileSystem

namespace Parse

open Journal Text

theorem constructConditional {raw : String} (conditional : construct raw = .conditional) :
    opensConditional raw = true := by
  unfold construct at conditional
  dsimp only at conditional
  split at conditional
  · cases conditional
  rename_i hash
  split at conditional
  · cases conditional
  · cases conditional
  by_cases assignment : isAssignment (trim raw) = true
  · simp [assignment] at conditional
  by_cases included : isInclude (trim raw) = true
  · simp [assignment, included] at conditional
  rw [if_neg assignment, if_neg included] at conditional
  split at conditional
  · rename_i found
    simp [opensConditional, hash, assignment, found]
  · rename_i found
    simp [opensConditional, hash, assignment, found]
  · cases conditional
  · cases conditional
  · split at conditional <;> cases conditional

structure Twin (r r' : Reader) : Prop where
  context : r'.context = r.context
  cwd : r'.stream.files.cwd = r.stream.files.cwd
  directories : r'.stream.files.directories = r.stream.files.directories

theorem Twin.refl (r : Reader) : Twin r r := ⟨rfl, rfl, rfl⟩

theorem Twin.withContext {r r' : Reader} (twin : Twin r r') (c : Context) :
    Twin { r with context := c } { r' with context := c } :=
  ⟨rfl, twin.cwd, twin.directories⟩

def AlikeAt {α : Type} (p p' : ReadM α) (r r' : Reader) : Prop :=
  ∀ a c, Gives (p.run r) (.ok (a, { r with context := c })) → Gives (p'.run r') (.ok (a, { r' with context := c }))

/-- `p` keeps the stream, and `p'` reads from a twin as `p` does. -/
def Alike {α : Type} (p p' : ReadM α) : Prop :=
  Keeps p ∧ ∀ r r', Twin r r' → AlikeAt p p' r r'

theorem givesAfter {α β : Type} {p : ReadM α} {f : α → ReadM β} {r r₁ : Reader} {a : α}
    {res res' : Except Halt (β × Reader)} (first : Gives (p.run r) (.ok (a, r₁)))
    (next : Gives ((f a).run r₁) res') (gives : Gives ((p >>= f).run r) res) : Gives ((f a).run r₁) res := by
  have same := givesUnique gives (by rw [StateT.run_bind]; exact givesBind first next)
  rw [same]
  exact next

namespace Alike

variable {α β : Type} {p p' : ReadM α} {f f' : α → ReadM β}

theorem ofUpdate (keeps : Keeps p) (g : Context → α) (h : Context → Context)
    (run : ∀ r, Gives (p.run r) (.ok (g r.context, { r with context := h r.context })))
    (run' : ∀ r, Gives (p'.run r) (.ok (g r.context, { r with context := h r.context }))) : Alike p p' := by
  refine ⟨keeps, fun r r' twin b c gives => ?_⟩
  have same := givesUnique gives (run r)
  simp only [Except.ok.injEq, Prod.mk.injEq, Reader.mk.injEq, true_and] at same
  obtain ⟨rfl, rfl⟩ := same
  rw [← twin.context]
  exact run' r'

theorem ofPure (a : α) : Alike (pure a : ReadM α) (pure a) :=
  ofUpdate (Keeps.ofPure a) (fun _ => a) id (fun _ => givesPure _) fun _ => givesPure _

theorem ofNote (n n' : Notice) (quiet : n.isFileEvent = false) : Alike (note n) (note n') :=
  ofUpdate (Keeps.ofNote n quiet) (fun _ => ()) id
    (fun r => givesBind (f := fun a => (pure (a, r) : Journal (Unit × Reader))) (givesNote n) (givesPure _))
    fun r => givesBind (f := fun a => (pure (a, r) : Journal (Unit × Reader))) (givesNote n') (givesPure _)

theorem assign (raw value : String) : Alike (Parse.assign raw value) (Parse.assign raw value) :=
  ofUpdate (Keeps.assign raw value) (fun c => (c.set raw value).1) (fun c => (c.set raw value).2)
    (fun r => assignRun (r := r) raw value ▸ givesPure _) fun r => assignRun (r := r) raw value ▸ givesPure _

theorem unassign (name : String) : Alike (Parse.unassign name) (Parse.unassign name) :=
  ofUpdate (Keeps.unassign name) (fun _ => ()) (fun c => c.unset name)
    (fun r => unassignRun (r := r) name ▸ givesPure _) fun r => unassignRun (r := r) name ▸ givesPure _

theorem bind (first : Alike p p') (next : ∀ a, Alike (f a) (f' a)) : Alike (p >>= f) (p' >>= f') := by
  refine ⟨first.1.bind fun a => (next a).1, fun r r' twin b c gives => ?_⟩
  obtain ⟨res, logs, -, same⟩ := first.1 r
  rcases res with h | ⟨a, r₁⟩
  · have stops : Gives ((p >>= f).run r) (.error h) := by
      rw [StateT.run_bind]
      exact givesBindError logs.gives
    exact absurd (givesUnique gives stops) (by simp)
  -- `p` kept the stream, so it changed only the variables
  have kept : r₁ = { r with context := r₁.context } := by
    rw [← same a r₁ rfl]
  obtain ⟨res', logs', -, -⟩ := (next a).1 r₁
  have rest := givesAfter logs.gives logs'.gives gives
  rw [kept] at rest
  rw [StateT.run_bind]
  exact givesBind ((first.2 r r' twin a r₁.context) (kept ▸ logs.gives))
    ((next a).2 _ _ (twin.withContext r₁.context) b c rest)

theorem ofFail {p' : ReadM α} (fault : Fault) (loc : Option Location) : Alike (fail fault loc) p' := by
  refine ⟨Keeps.ofFail fault loc, fun r r' _ a c gives => ?_⟩
  exact absurd (givesUnique gives (givesThrow _)) (by simp)

theorem placeThen {g g' : Option Location → ReadM α} (next : ∀ loc loc', Alike (g loc) (g' loc')) :
    Alike (place >>= g) (place >>= g') :=
  ⟨Keeps.place.bind fun loc => (next loc loc).1, fun r r' twin =>
    (next r.stream.loc r'.stream.loc).2 r r' twin⟩

theorem getThen {g g' : Reader → ReadM α} (next : ∀ r r', Twin r r' → Alike (g r) (g' r')) :
    Alike (get >>= g) (get >>= g') :=
  ⟨Keeps.ofGet fun r => (next r r (Twin.refl r)).1, fun r r' twin => (next r r' twin).2 r r' twin⟩


theorem exportDirective (d : Directive) (line : String) (loc loc' : Option Location) :
    Alike (Parse.exportDirective d line loc) (Parse.exportDirective d line loc') := by
  unfold Parse.exportDirective
  dsimp only
  split
  · exact ofFail _ _
  split
  · exact bind (unassign _) fun _ => ofPure _
  split
  · split
    · exact ofFail _ _
    · exact bind (assign _ _) fun _ => ofPure _
  · exact ofFail _ _

theorem manifestPath (loc loc' : Option Location) (words : List String) :
    Alike (Parse.manifestPath loc words) (Parse.manifestPath loc' words) := by
  induction words with
  | nil => exact ofPure _
  | cons w rest ih =>
    unfold Parse.manifestPath
    split
    · split
      · exact ofPure _
      · exact bind (ofNote _ _ rfl) fun _ => ofPure _
    split
    · exact ofPure _
    · exact ih

theorem manifestDirectory (cwd path : String) (loc loc' : Option Location) :
    Alike (Parse.manifestDirectory cwd path loc) (Parse.manifestDirectory cwd path loc') := by
  unfold Parse.manifestDirectory
  dsimp only
  refine getThen fun r r' twin => ?_
  rw [twin.context]
  split
  · exact bind (ofNote _ _ rfl) fun _ => ofPure _
  · exact ofPure _

theorem cargoStep (cwd line : String) (words : List String) (loc loc' : Option Location) :
    Alike (Parse.cargoStep cwd line words loc) (Parse.cargoStep cwd line words loc') := by
  unfold Parse.cargoStep
  split
  · exact bind (ofNote _ _ rfl) fun _ => ofPure _
  · refine bind (manifestPath _ _ _) fun found => ?_
    split
    · exact ofPure _
    · exact bind (manifestDirectory _ _ _ _) fun _ => ofPure _

theorem changeDirectory (cwd dir : String) (loc loc' : Option Location) :
    Alike (Parse.changeDirectory cwd dir loc) (Parse.changeDirectory cwd dir loc') := by
  unfold Parse.changeDirectory
  dsimp only
  refine getThen fun r r' twin => ?_
  rw [FileSystem.isDirSame twin.cwd twin.directories]
  split
  · exact bind (ofNote _ _ rfl) fun _ => ofPure _
  · exact bind (ofNote _ _ rfl) fun _ => ofPure _

theorem step (cwd raw : String) (loc loc' : Option Location) :
    Alike (Parse.step cwd raw loc) (Parse.step cwd raw loc') := by
  unfold Parse.step
  dsimp only
  split
  · exact ofPure _
  split
  · exact bind (exportDirective _ _ _ _) fun _ => ofPure _
  · exact bind (exportDirective _ _ _ _) fun _ => ofPure _
  split
  · exact bind (cargoStep _ _ _ _ _) fun _ => ofPure _
  · exact bind (changeDirectory _ _ _ _) fun _ => ofPure _
  · exact bind (ofNote _ _ rfl) fun _ => ofPure _
  · exact ofPure _

theorem stepsOf (cwd : String) {lines lines' : List (String × Option Location)}
    (texts : lines'.map Prod.fst = lines.map Prod.fst) :
    Alike (Parse.stepsOf cwd lines) (Parse.stepsOf cwd lines') := by
  induction lines generalizing cwd lines' with
  | nil =>
    rw [List.map_eq_nil_iff.mp texts]
    exact ofPure _
  | cons line rest ih =>
    obtain ⟨text, loc⟩ := line
    obtain _ | ⟨⟨text', loc'⟩, rest'⟩ := lines'
    · simp at texts
    simp only [List.map_cons, List.cons.injEq] at texts
    obtain ⟨rfl, texts⟩ := texts
    rw [Parse.stepsOf, Parse.stepsOf]
    split
    · exact ih cwd texts
    · exact bind (step _ _ _ _) fun x => bind (ih x.2 texts) fun _ => ofPure _

theorem ruleOf (line : String) {loc loc' : Location} {run run' : List (String × Location)}
    (path : loc'.path = loc.path) (texts : run'.map Prod.fst = run.map Prod.fst) :
    Alike (Parse.ruleOf line loc run) (Parse.ruleOf line loc' run') := by
  unfold Parse.ruleOf
  dsimp only
  split
  · exact ofFail _ _
  refine getThen fun r r' twin => ?_
  rw [twin.context, path]
  refine bind (stepsOf _ ?_) fun _ => ofPure _
  simp only [List.map_append, List.map_map]
  exact congrArg _ (by simpa [Function.comp_def] using texts)

theorem statement {raw : String} (plain : construct raw ≠ .include) (notOpen : construct raw ≠ .conditional)
    (notRule : construct raw ≠ .rule) (n m : Nat) :
    Alike (Parse.statement (n + 1) raw) (Parse.statement (m + 1) raw) := by
  rw [statementDispatch, statementDispatch]
  rcases found : construct raw with _ | d | _ | _ | _ | keyword | _ | _
  · exact ofPure _
  · exact placeThen fun _ _ => bind (exportDirective _ _ _ _) fun _ => ofPure _
  · exact bind (assign _ _) fun _ => ofPure _
  · exact absurd found plain
  · exact absurd found notOpen
  · exact placeThen fun _ _ => ofFail _ _
  · exact absurd found notRule
  · exact placeThen fun _ _ => bind (ofNote _ _ rfl) fun _ => ofPure _

end Alike

end Parse

end Maketree
