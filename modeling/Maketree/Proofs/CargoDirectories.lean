import Mathlib
import Maketree.Proofs.NormalPaths
import Maketree.Proofs.Rules
/-! Where cargo steps are placed: the directory of the manifest, relative to the root directory,
when it lies strictly inside it; `Astray` sets apart the two manifests placed otherwise. -/
namespace Maketree

open Text Journal
open LineStream (Faulty)

namespace Text

theorem wordsFromHead : ∀ (cs acc : List Char), acc ≠ [] →
    (wordsFrom acc cs).head? = some (acc.reverse ++ cs.takeWhile fun c => !isBlank c)
  | [], acc, full => by simp [wordsFrom, full]
  | c :: cs, acc, full => by
    by_cases blank : isBlank c = true
    · simp [wordsFrom, blank, full]
    · rw [wordsFrom, if_neg blank, wordsFromHead cs (c :: acc) (List.cons_ne_nil _ _)]
      simp [blank]

theorem firstWord {s w : String} {more : List String} (ws : words s = w :: more)
    (lead : ∀ c ∈ s.toList.head?, isBlank c = false) :
    w.toList = s.toList.takeWhile fun c => !isBlank c := by
  unfold words at ws
  cases chars : s.toList with
  | nil => simp [chars, wordsFrom] at ws
  | cons c cs =>
    rw [chars] at ws lead
    have solid : isBlank c = false := lead c rfl
    have heads := congrArg List.head? ws
    rw [List.head?_map, List.head?_cons, wordsFrom, if_neg (by simp [solid]),
      wordsFromHead cs [c] (List.cons_ne_nil _ _)] at heads
    simp only [Option.map_some, Option.some.injEq] at heads
    rw [← heads, String.toList_ofList]
    simp [solid]

end Text

theorem Directive.leadsRun {d : Directive} {cs : List Char} (leads : d.leads cs = true) :
    cs.takeWhile (fun c => !isBlank c) = d.keyword.toList := by
  simp only [Directive.leads, Bool.and_eq_true] at leads
  obtain ⟨⟨rest, whole⟩, after⟩ := And.intro (List.isPrefixOf_iff_prefix.mp leads.1) leads.2
  have solid : ∀ c ∈ d.keyword.toList, (!isBlank c) = true := by
    cases d <;> simp [Directive.keyword] <;> decide
  rw [← whole] at after ⊢
  rw [List.drop_left] at after
  rw [List.takeWhile_append_of_pos solid]
  cases rest with
  | nil => simp
  | cons c tail => simp_all

namespace Parse

section Words

variable {raw w : String} {more : List String}

theorem commentLead (hash : startsWithHash (trim raw) = true) (ws : words (trim raw) = w :: more) :
    w.toList.head? = some '#' := by
  have lead := trimCharsLead raw.toList
  rw [firstWord ws (by simpa [trim] using lead)]
  simp only [startsWithHash, beq_iff_eq, List.head?_eq_some_iff] at hash
  obtain ⟨tail, whole⟩ := hash
  rw [whole]
  rfl

theorem directiveLead {d : Directive} (found : directive? (trim raw) = some d)
    (ws : words (trim raw) = w :: more) : w = d.keyword := by
  have lead := trimCharsLead raw.toList
  have leads := List.find?_some found
  apply String.toList_inj.mp
  rw [firstWord ws (by simpa [trim] using lead), d.leadsRun leads]

end Words

def cdStep (isDir : String → Bool) (cwd text : String) : String :=
  match words (trim text) with
  | "cd" :: dir :: _ => if isDir (Path.normalJoin cwd dir) then Path.normalJoin cwd dir else cwd
  | _ => cwd

def manifestArgument : List String → Option String
  | [] => none
  | w :: rest =>
    if w = "--manifest-path" then rest.head?
    else if "--manifest-path=".toList <+: w.toList then
      some (String.ofList (w.toList.drop "--manifest-path=".length))
    else manifestArgument rest

def Astray (root manifest : String) : Prop :=
  Path.normalize manifest = Path.normalize root ∨
    (Path.normalize root = "/" ∧ Path.leadingSlashes (Path.normalize manifest).toList = 2)

def DirectoryFits (root manifest : String) (dir : Option String) : Prop :=
  (dir.isSome ↔ Path.Below manifest root ∧ Path.normalize manifest ≠ Path.normalize root) ∧
    ∀ d, dir = some d → (d = "." ∨ Path.GoesDown d) ∧ Path.normalJoin root d = Path.dirName manifest

theorem DirectoryFits.placed {root manifest d : String}
    (inside : Path.Below manifest root ∧ Path.normalize manifest ≠ Path.normalize root)
    (down : d = "." ∨ Path.GoesDown d) (joined : Path.normalJoin root d = Path.dirName manifest) :
    DirectoryFits root manifest (some d) :=
  ⟨by simpa using inside, fun _ same => by cases same; exact ⟨down, joined⟩⟩

theorem DirectoryFits.unplaced {root manifest : String}
    (outside : ¬(Path.Below manifest root ∧ Path.normalize manifest ≠ Path.normalize root)) :
    DirectoryFits root manifest none :=
  ⟨by simpa using outside, fun _ missing => by cases missing⟩

@[irreducible] def CargoFits (root cwd text : String) (s : Statement) : Prop :=
  match words (trim text) with
  | "cargo" :: w :: more =>
    ∀ sub, Subcommand.ofWord? w = some sub → ∃ dir, s = .cargo sub dir (trim text) ∧
      match manifestArgument (w :: more) with
      | none => dir = none
      | some arg => ¬Astray root (Path.normalJoin cwd arg) →
          DirectoryFits root (Path.normalJoin cwd arg) dir
  | _ => True

def StepsFit (isDir : String → Bool) (root : String) : String → List String → List Statement → Prop
  | _, [], [] => True
  | cwd, text :: texts, s :: steps =>
    CargoFits root cwd text s ∧ StepsFit isDir root (cdStep isDir cwd text) texts steps
  | _, _, _ => False

theorem plainStep {isDir : String → Bool} {root cwd text : String}
    (notCd : ∀ dir more, words (trim text) ≠ "cd" :: dir :: more)
    (notCargo : ∀ w more, words (trim text) ≠ "cargo" :: w :: more) :
    cdStep isDir cwd text = cwd ∧ ∀ s, CargoFits root cwd text s := by
  constructor
  · unfold cdStep
    split
    · rename_i dir more same
      exact absurd same (notCd dir more)
    · rfl
  · intro s
    unfold CargoFits
    split
    · rename_i w more same
      exact absurd same (notCargo w more)
    · trivial

theorem plainLead {text : String}
    (lead : ∀ w more, words (trim text) = w :: more → w ≠ "cd" ∧ w ≠ "cargo") :
    (∀ dir more, words (trim text) ≠ "cd" :: dir :: more) ∧
      ∀ w more, words (trim text) ≠ "cargo" :: w :: more :=
  ⟨fun _ _ same => (lead _ _ same).1 rfl, fun _ _ same => (lead _ _ same).2 rfl⟩

theorem manifestPlaced {root manifest : String} (absolute : Path.isAbsolute root = true)
    (normal : Path.normalize manifest = manifest) (notAstray : ¬Astray root manifest) :
    DirectoryFits root manifest ((Path.relativeTo manifest root).map fun rel =>
      if (Path.dirName rel).isEmpty then "." else Path.dirName rel) := by
  have full : root ≠ "" := by
    rintro rfl
    cases absolute
  have rooted := Path.leadingAbsolute absolute
  have stackedM := Path.componentsStacked manifest.toList
  have properM : ∀ c ∈ Path.components manifest.toList, Path.Proper c :=
    fun c mem => stackedM.proper c (List.mem_reverse.mpr mem)
  have notRoot : Path.normalize manifest ≠ Path.normalize root := fun same => notAstray (Or.inl same)
  have sameKind : Path.leadingSlashes root.toList = 1 → Path.components root.toList = [] →
      Path.leadingSlashes manifest.toList ≠ 2 := by
    intro one none two
    refine notAstray (Or.inr ⟨?_, by rw [normal]; exact two⟩)
    rw [← String.toList_inj, Path.normalizeToList, one, none]
    rfl
  have rootText : Path.normalize root =
      String.ofList (Path.render (Path.leadingSlashes root.toList) (Path.components root.toList)) := by
    rw [← Path.normalizeToList, String.ofList_toList]
  rw [Path.relativeToComponents manifest root (fun dot => rooted dot.1) sameKind]
  by_cases below : Path.leadingSlashes manifest.toList = Path.leadingSlashes root.toList ∧
      Path.components root.toList <+: Path.components manifest.toList
  · have inside := And.intro ((Path.belowIff _ _).mpr below) notRoot
    rw [if_pos below]
    obtain ⟨extra, comps⟩ := below.2
    have more : extra ≠ [] := by
      rintro rfl
      apply notRoot
      rw [← String.toList_inj, Path.normalizeToList, Path.normalizeToList, below.1, ← comps,
        List.append_nil]
    -- the manifest's last component is its file name, and the components before it its directory
    obtain ⟨front, last, rfl⟩ : ∃ front last, extra = front ++ [last] :=
      ⟨extra.dropLast, extra.getLast more, (List.dropLast_append_getLast more).symm⟩
    have properE : ∀ c ∈ front ++ [last], Path.Proper c :=
      fun c mem => properM c (comps ▸ List.mem_append_right _ mem)
    have properF : ∀ c ∈ front, Path.Proper c := fun c mem => properE c (List.mem_append_left _ mem)
    have properD : ∀ c ∈ Path.components root.toList ++ front ++ [last], Path.Proper c := by
      rw [List.append_assoc, comps]
      exact properM
    have stacked : Path.Stacked (Path.leadingSlashes root.toList != 0)
        (front.reverse ++ (Path.components root.toList).reverse) := by
      have whole := stackedM
      rw [← comps, below.1, List.reverse_append, List.reverse_append, List.append_assoc] at whole
      exact @Path.Stacked.right _ [last] _ whole
    have manifestDir : Path.dirName manifest =
        String.ofList (Path.render (Path.leadingSlashes root.toList) (Path.components root.toList ++ front)) := by
      rw [← normal, ← String.ofList_toList (s := Path.normalize manifest), Path.normalizeToList, below.1,
        ← comps, ← List.append_assoc, Path.dirNameRender properD, if_neg fun dot => rooted dot.1]
    have relText : ['/'].intercalate (front ++ [last]) = Path.render 0 (front ++ [last]) := by
      rw [@Path.renderBody 0 (front ++ [last]) (by simp) properE]
      simp
    have differ : Path.components manifest.toList ≠ Path.components root.toList := by
      rw [← comps]
      simp
    rw [if_neg differ, ← comps, List.drop_left, relText, Option.map_some, Path.dirNameRender properE]
    by_cases alone : front = []
    · subst alone
      refine DirectoryFits.placed (d := ".") inside (Or.inl rfl) ?_
      rw [Path.normalJoinDot full, manifestDir, rootText, List.append_nil]
    · have text := Path.intercalateProper properF
      have named : (String.ofList (['/'].intercalate front)).isEmpty = false := by
        rw [Bool.eq_false_iff]
        intro empty
        have blank := congrArg String.toList (String.isEmpty_iff.mp empty)
        rw [String.toList_ofList, String.toList_empty] at blank
        exact alone (text.2 blank)
      rw [if_neg (show ¬(0 = 0 ∧ front = []) from fun dot => alone dot.2),
        @Path.renderBody 0 front (by simp [alone]) properF, List.replicate_zero, List.nil_append,
        if_neg (show ¬(String.ofList (['/'].intercalate front)).isEmpty = true by simp [named])]
      refine DirectoryFits.placed inside (Or.inr ?_) ?_
      · have downward : Path.Stacked true front.reverse := by
          rw [← show (Path.leadingSlashes root.toList != 0) = true by simpa using rooted]
          exact Path.Stacked.left stacked
        exact Path.goesDownComponents alone downward
      · rw [Path.normalJoinExtends full alone properF stacked, manifestDir]
  · rw [if_neg below]
    exact DirectoryFits.unplaced fun inside => below ((Path.belowIff _ _).mp inside.1)

theorem Context.setRoot (ctx : Context) (raw value : String) :
    (ctx.set raw value).2.rootDir = ctx.rootDir := by
  have conditional : ∀ p, (Context.markConditional p).2.rootDir = p.2.rootDir := fun p => by
    unfold Context.markConditional
    split <;> rfl
  have simple : ∀ p, (Context.markSimple p).2.rootDir = p.2.rootDir := fun p => by
    unfold Context.markSimple
    split <;> rfl
  rw [Context.set]
  dsimp only
  rw [simple, conditional]

section Placing

variable {stop : Halt → Prop}

theorem manifestPathArgument (loc : Option Location) (ws : List String) (r : Reader) :
    Runs (manifestPath loc ws) r (fun found r' _ => found = manifestArgument ws ∧ r' = r) stop := by
  induction ws with
  | nil => exact .ofPure ⟨rfl, rfl⟩
  | cons w rest ih =>
    unfold manifestPath
    split
    · rename_i flag
      split
      · exact .ofPure ⟨by rw [manifestArgument, if_pos flag]; rfl, rfl⟩
      · exact .noteThen rfl (.ofPure ⟨by rw [manifestArgument, if_pos flag]; rfl, rfl⟩)
    rename_i notFlag
    split
    · rename_i cut
      exact .ofPure ⟨by rw [manifestArgument, if_neg notFlag,
        if_pos (List.isPrefixOf_iff_prefix.mp cut)], rfl⟩
    · rename_i notCut
      refine ih.mono fun found r' _ ⟨same, kept⟩ => ⟨?_, kept⟩
      rw [manifestArgument, if_neg notFlag,
        if_neg fun cut => notCut (List.isPrefixOf_iff_prefix.mpr cut), same]

theorem manifestDirectoryOf (cwd path : String) (loc : Option Location) (r : Reader) :
    Runs (manifestDirectory cwd path loc) r (fun dir r' _ => r' = r ∧
      dir = (Path.relativeTo (Path.normalJoin cwd path) r.context.rootDir).map fun rel =>
        if (Path.dirName rel).isEmpty then "." else Path.dirName rel) stop := by
  unfold manifestDirectory
  refine .getThen ?_
  dsimp only
  split
  · rename_i outside
    exact .noteThen rfl (.ofPure ⟨rfl, by rw [outside]; rfl⟩)
  · rename_i rel found
    exact .ofPure ⟨rfl, by rw [found]; rfl⟩

theorem cargoStepPlaced (cwd line w : String) (more : List String) (loc : Option Location) (r : Reader)
    (absolute : Path.isAbsolute r.context.rootDir = true) :
    Runs (cargoStep cwd line (w :: more) loc) r (fun s r' _ => r' = r ∧
      ∀ sub, Subcommand.ofWord? w = some sub → ∃ dir, s = .cargo sub dir line ∧
        match manifestArgument (w :: more) with
        | none => dir = none
        | some arg => ¬Astray r.context.rootDir (Path.normalJoin cwd arg) →
            DirectoryFits r.context.rootDir (Path.normalJoin cwd arg) dir) stop := by
  unfold cargoStep
  split
  · rename_i unknown
    refine .noteThen rfl (.ofPure ⟨rfl, fun sub known => ?_⟩)
    simp [known] at unknown
  · rename_i sub found
    have own : ∀ sub', Subcommand.ofWord? w = some sub' → sub' = sub := fun sub' known => by
      simpa [known] using found
    have skip : manifestArgument ("cargo" :: w :: more) = manifestArgument (w :: more) := by
      rw [manifestArgument, if_neg (by decide), if_neg (by decide)]
    refine .bind (manifestPathArgument loc _ r) fun found r₁ _ ⟨isArg, same⟩ => ?_
    subst r₁
    rw [skip] at isArg
    cases found with
    | none =>
      refine .ofPure ⟨rfl, fun sub' known => ⟨none, by rw [own sub' known], ?_⟩⟩
      rw [← isArg]
    | some path =>
      refine .bind (manifestDirectoryOf cwd path loc r) fun dir r₂ _ ⟨kept, placed⟩ =>
        .ofPure ⟨kept, fun sub' known => ⟨dir, by rw [own sub' known], ?_⟩⟩
      rw [← isArg]
      intro notAstray
      rw [placed]
      exact manifestPlaced absolute (Path.normalizeNormalJoin cwd path) notAstray

theorem assignKeepsRoot (raw value : String) (r : Reader) :
    Runs (assign raw value) r
      (fun _ r' _ => r'.stream = r.stream ∧ r'.context.rootDir = r.context.rootDir) stop := by
  refine (assignSets raw value r).mono fun _ r' _ ⟨_, set⟩ => ?_
  rw [set]
  refine ⟨rfl, ?_⟩
  dsimp only
  exact Context.setRoot r.context raw value

theorem unassignKeepsRoot (name : String) (r : Reader) :
    Runs (unassign name) r
      (fun _ r' _ => r'.stream = r.stream ∧ r'.context.rootDir = r.context.rootDir) stop :=
  (unassignSets name r).mono fun _ _ _ set => by rw [set]; exact ⟨rfl, rfl⟩

end Placing

theorem exportKeepsRoot (d : Directive) (line : String) (loc : Option Location) (r : Reader) :
    Runs (exportDirective d line loc) r
      (fun _ r' _ => r'.stream = r.stream ∧ r'.context.rootDir = r.context.rootDir) ⊤ := by
  unfold exportDirective
  dsimp only
  split
  · exact .ofFail _ _ trivial
  split
  · exact .bind (unassignKeepsRoot _ r) fun _ _ _ kept => .ofPure kept
  split
  · split
    · exact .ofFail _ _ trivial
    · exact .bind (assignKeepsRoot _ _ r) fun _ _ _ kept => .ofPure kept
  · exact .ofFail _ _ trivial

theorem changeDirectoryTo (cwd dir : String) (loc : Option Location) (r : Reader) :
    Runs (changeDirectory cwd dir loc) r (fun moved r' _ => r' = r ∧
      moved = if r.stream.files.isDir (Path.normalJoin cwd dir) then Path.normalJoin cwd dir else cwd) ⊤ := by
  unfold changeDirectory
  refine .getThen ?_
  split
  · exact .noteThen rfl (.ofPure ⟨rfl, rfl⟩)
  · exact .noteThen rfl (.ofPure ⟨rfl, rfl⟩)

theorem stepPlaced (cwd raw : String) (loc : Option Location) (r : Reader)
    (absolute : Path.isAbsolute r.context.rootDir = true) :
    Runs (step cwd raw loc) r (fun x r' _ => CargoFits r.context.rootDir cwd raw x.1 ∧
      x.2 = cdStep r.stream.files.isDir cwd raw ∧ r'.stream = r.stream ∧
      r'.context.rootDir = r.context.rootDir) ⊤ := by
  unfold step
  dsimp only
  split
  · -- a comment, whose first word starts with `#`
    rename_i hash
    obtain ⟨notCd, notCargo⟩ := plainLead fun w more ws => by
      have first := commentLead hash ws
      constructor <;> rintro rfl <;> simp at first
    obtain ⟨kept, fits⟩ := @plainStep r.stream.files.isDir r.context.rootDir cwd raw notCd notCargo
    exact .ofPure ⟨fits _, kept.symm, rfl, rfl⟩
  split
  · rename_i found
    obtain ⟨notCd, notCargo⟩ := plainLead fun w more ws => by
      rw [directiveLead found ws]
      exact ⟨by decide, by decide⟩
    obtain ⟨kept, fits⟩ := @plainStep r.stream.files.isDir r.context.rootDir cwd raw notCd notCargo
    exact .bind (exportKeepsRoot _ _ _ r) fun s r' _ ⟨stream, root⟩ =>
      .ofPure ⟨fits s, kept.symm, stream, root⟩
  · rename_i found
    obtain ⟨notCd, notCargo⟩ := plainLead fun w more ws => by
      rw [directiveLead found ws]
      exact ⟨by decide, by decide⟩
    obtain ⟨kept, fits⟩ := @plainStep r.stream.files.isDir r.context.rootDir cwd raw notCd notCargo
    exact .bind (exportKeepsRoot _ _ _ r) fun s r' _ ⟨stream, root⟩ =>
      .ofPure ⟨fits s, kept.symm, stream, root⟩
  split
  · rename_i rest ws
    cases rest with
    | nil =>
      obtain ⟨kept, fits⟩ := @plainStep r.stream.files.isDir r.context.rootDir cwd raw
        (fun _ _ same => by simp [ws] at same) (fun _ _ same => by simp [ws] at same)
      exact .bind ((cargoStepRuns cwd (trim raw) [] loc r).mono fun _ _ _ h => h.2.2)
        fun s r' _ same => .ofPure ⟨fits s, kept.symm, by rw [same], by rw [same]⟩
    | cons w more =>
      refine .bind (cargoStepPlaced cwd (trim raw) w more loc r absolute) fun s r' _ ⟨same, fits⟩ =>
        .ofPure ⟨?_, ?_, by rw [same], by rw [same]⟩
      · unfold CargoFits
        rw [ws]
        exact fits
      · simp [cdStep, ws]
  · rename_i dir more ws
    refine .bind (changeDirectoryTo cwd dir loc r) fun moved r' _ ⟨same, into⟩ =>
      .ofPure ⟨?_, ?_, by rw [same], by rw [same]⟩
    · simp [CargoFits, ws]
    · simp [cdStep, ws, into]
  · rename_i ws
    obtain ⟨kept, fits⟩ := @plainStep r.stream.files.isDir r.context.rootDir cwd raw
      (fun _ _ same => by simp [ws] at same) (fun _ _ same => by simp [ws] at same)
    exact .noteThen rfl (.ofPure ⟨fits _, kept.symm, rfl, rfl⟩)
  · rename_i notCargo notCd notAlone
    obtain ⟨kept, fits⟩ := @plainStep r.stream.files.isDir r.context.rootDir cwd raw
      (fun dir more same => notCd dir more same) (fun w more same => notCargo (w :: more) same)
    exact .ofPure ⟨fits _, kept.symm, rfl, rfl⟩

theorem stepsOfPlaced (cwd : String) (lines : List (String × Option Location)) (r : Reader)
    (absolute : Path.isAbsolute r.context.rootDir = true) :
    Runs (stepsOf cwd lines) r (fun steps r' _ =>
      StepsFit r.stream.files.isDir r.context.rootDir cwd
        ((lines.map Prod.fst).filter fun text => !isBlankText text) steps ∧
      r'.stream = r.stream ∧ r'.context.rootDir = r.context.rootDir) ⊤ := by
  induction lines generalizing cwd r with
  | nil => exact .ofPure ⟨trivial, rfl, rfl⟩
  | cons line rest ih =>
    obtain ⟨text, loc⟩ := line
    rw [stepsOf]
    split
    · rename_i blank
      refine (ih cwd r absolute).mono fun steps r' _ fits => ?_
      simpa [blank] using fits
    · rename_i solid
      refine .bind (stepPlaced cwd text loc r absolute) fun x r₁ _ stepped => ?_
      obtain ⟨s, cwd'⟩ := x
      obtain ⟨fits, moved, stream, root⟩ := stepped
      refine .bind (ih cwd' r₁ (root ▸ absolute)) fun more r₂ _ after =>
        .ofPure ⟨?_, after.2.1.trans stream, after.2.2.trans root⟩
      have fitsMore := after.1
      rw [stream, root, show cwd' = _ from moved] at fitsMore
      simp only [List.map_cons, List.filter_cons, solid, Bool.not_false, if_true]
      exact ⟨fits, fitsMore⟩

theorem ruleOfPlaced (line : String) (loc : Location) (run : List (String × Location)) (r : Reader)
    (absolute : Path.isAbsolute r.context.rootDir = true) :
    Runs (ruleOf line loc run) r (fun t _ _ => ∃ name deps path doubleColon steps,
      t = .target name deps path doubleColon steps ∧
      StepsFit r.stream.files.isDir r.context.rootDir r.context.rootDir
        (((ruleHeader line).command.toList ++ run.map Prod.fst).filter fun text => !isBlankText text)
        steps) ⊤ := by
  unfold ruleOf
  dsimp only
  split
  · exact .ofFail _ _ trivial
  · refine .getThen (.bind (stepsOfPlaced _ _ r absolute) fun steps _ _ ⟨fits, _⟩ =>
      .ofPure ⟨_, _, _, _, steps, rfl, ?_⟩)
    simpa [List.map_append, List.map_map, Function.comp_def] using fits

theorem constructRuleHeader {raw : String} (rule : construct raw = .rule) :
    isRuleHeader (trim (trim raw)) = true := by
  have heads := (constructRule raw).mp rule
  simp only [headsRule, Bool.and_eq_true] at heads
  simpa using heads.2

theorem cargoStepsPlaced (fuel : Nat) (raw : String) (r : Reader) {loc : Location}
    (rule : construct raw = .rule) (here : r.stream.loc = some loc) (ahead : r.stream.Ahead)
    (fine : ¬Faulty r.stream.frames) (enough : (recipeRun r.stream).length < fuel)
    (absolute : Path.isAbsolute r.context.rootDir = true) :
    ∃ res, Gives ((statement (fuel + 1) raw).run r) res ∧
      ∀ t r', res = .ok (some t, r') → ∃ name deps path doubleColon steps,
        t = .target name deps path doubleColon steps ∧
        StepsFit r.stream.files.isDir r.context.rootDir r.context.rootDir
          (((ruleHeader (trim raw)).command.toList ++ (recipeRun r.stream).map Prod.fst).filter
            fun text => !isBlankText text) steps := by
  obtain ⟨res, gives, spec, -⟩ :=
    targetReads fuel (trim raw) r (constructRuleHeader rule) here ahead fine enough
  simp only [trimTrim] at spec
  obtain ⟨ruled, _, logged, holds, -⟩ := ruleOfPlaced (trim raw) loc (recipeRun r.stream) r absolute
  -- the stream-free reading ends as the parser does, up to the stream
  have same : onStream r.stream res = ruled := givesUnique spec logged.gives
  refine ⟨res.map fun x => (some x.1, x.2), ?_, fun t r' ok => ?_⟩
  · rw [statementDispatch, rule]
    exact givesThen gives
  · rcases res with halt | ⟨t', r''⟩
    · cases ok
    · have found : ruled = .ok (t', { r'' with stream := r.stream }) := by
        rw [← same]
        rfl
      simp only [Except.map, Except.ok.injEq, Prod.mk.injEq, Option.some.injEq] at ok
      rw [← ok.1]
      exact holds (t', _) found

def cargoRecipeReader : Reader :=
  ⟨{ files := ⟨"/w", ["/w", "/w/sub"], []⟩, workDir := "/w",
     frames := [⟨"Makefile", 2, ["\tcargo build --manifest-path=../Cargo.toml"], none⟩],
     eof := false, loc := some ⟨"Makefile", 1⟩, next := "\tcd sub", nextLoc := some ⟨"Makefile", 2⟩ },
   ⟨"/w", [], [], []⟩⟩

set_option maxRecDepth 8192 in
theorem cargoRecipeReaderPlaced :
    construct "all:" = .rule ∧ cargoRecipeReader.stream.Ahead ∧ ¬Faulty cargoRecipeReader.stream.frames ∧
      (recipeRun cargoRecipeReader.stream).length < 3 ∧
      Path.isAbsolute cargoRecipeReader.context.rootDir = true ∧
      ∃ res, Gives ((statement 4 "all:").run cargoRecipeReader) res ∧
        ∀ t r', res = .ok (some t, r') → ∃ name deps path doubleColon steps,
          t = .target name deps path doubleColon steps ∧
          StepsFit cargoRecipeReader.stream.files.isDir "/w" "/w"
            (((ruleHeader (trim "all:")).command.toList ++
              (recipeRun cargoRecipeReader.stream).map Prod.fst).filter fun text => !isBlankText text)
            steps := by
  have rule : construct "all:" = .rule := by decide
  have ahead : cargoRecipeReader.stream.Ahead :=
    ⟨[("Makefile", [("\tcd sub", 2), ("\tcargo build --manifest-path=../Cargo.toml", 3)])],
      .ahead rfl rfl rfl rfl (by decide)⟩
  have fine : ¬Faulty cargoRecipeReader.stream.frames := by simp [Faulty, cargoRecipeReader]
  have enough : (recipeRun cargoRecipeReader.stream).length < 3 := by decide
  have absolute : Path.isAbsolute cargoRecipeReader.context.rootDir = true := by decide
  exact ⟨rule, ahead, fine, enough, absolute,
    cargoStepsPlaced 3 "all:" cargoRecipeReader rule rfl ahead fine enough absolute⟩

theorem rootManifestPlacedAtDot :
    (match (Makefile.parseText ⟨"/w", ["/w"], []⟩ "a:\n\tcargo build --manifest-path=\n" "Makefile"
        none).run.1 with
      | .ok m => Statement.dumpAll "" m.statements
      | .error h => h.message) =
      "Target a: \n  Defined in: Makefile\n    Cargo BUILD .\n        Original: 'cargo build --manifest-path='\n" ∧
    ¬DirectoryFits "/w" (Path.normalJoin "/w" "") (some ".") := by
  refine ⟨by decide +kernel, fun fits => (fits.1.mp rfl).2 (by decide)⟩

end Parse

end Maketree
