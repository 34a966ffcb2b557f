import Mathlib
import Maketree.Path
/-! Normal forms of paths as stacks of components, and `relativeTo` against the components. -/
namespace Maketree.Path

def parent : List Char := ['.', '.']

def Proper (c : List Char) : Prop := c ≠ [] ∧ c ≠ ['.'] ∧ '/' ∉ c

/-- What the stack of components can hold, top first: proper components, where a `..` has only
`..`s below it, and none at all in a rooted path. -/
def Stacked (rooted : Bool) : List (List Char) → Prop
  | [] => True
  | c :: rest => Proper c ∧ (c = parent → rooted = false ∧ ∀ q ∈ rest, q = parent) ∧ Stacked rooted rest

theorem Stacked.tail {rooted : Bool} {c : List Char} {rest : List (List Char)}
    (h : Stacked rooted (c :: rest)) : Stacked rooted rest := h.2.2

theorem Stacked.right {rooted : Bool} : ∀ {front back : List (List Char)},
    Stacked rooted (front ++ back) → Stacked rooted back
  | [], _, h => h
  | _ :: front, _, h => @Stacked.right rooted front _ h.tail

theorem Stacked.left {rooted : Bool} : ∀ {front back : List (List Char)},
    Stacked rooted (front ++ back) → Stacked rooted front
  | [], _, _ => trivial
  | _ :: _, _, ⟨proper, climbs, rest⟩ =>
    ⟨proper, fun up => ⟨(climbs up).1, fun q mem => (climbs up).2 q (List.mem_append_left _ mem)⟩,
      Stacked.left rest⟩

theorem Stacked.push {rooted : Bool} {stack : List (List Char)} {comp : List Char}
    (noSlash : '/' ∉ comp) (h : Stacked rooted stack) :
    Stacked rooted (pushComponent rooted stack comp) := by
  unfold pushComponent
  by_cases skipped : comp = [] ∨ comp = ['.']
  · rw [if_pos skipped]
    exact h
  rw [if_neg skipped]
  have proper : Proper comp := ⟨fun e => skipped (.inl e), fun e => skipped (.inr e), noSlash⟩
  by_cases climbs : comp ≠ ['.', '.']
  · rw [if_pos climbs]
    exact ⟨proper, fun e => absurd e climbs, h⟩
  rw [if_neg climbs]
  cases stack with
  | nil =>
    -- a `..` at the top of a rooted path is dropped, and kept at the start of a relative one
    cases rooted
    · exact ⟨proper, fun _ => ⟨rfl, by simp⟩, trivial⟩
    · trivial
  | cons top rest =>
    dsimp only
    split
    · rename_i topParent
      refine ⟨proper, fun _ => ⟨(h.2.1 topParent).1, ?_⟩, h⟩
      intro q mem
      rcases List.mem_cons.mp mem with rfl | below
      · exact topParent
      · exact (h.2.1 topParent).2 q below
    · exact h.tail

theorem pushStacked {rooted : Bool} {stack : List (List Char)} {comp : List Char}
    (h : Stacked rooted (comp :: stack)) : pushComponent rooted stack comp = comp :: stack := by
  obtain ⟨⟨nonEmpty, notDot, -⟩, climbs, below⟩ := h
  unfold pushComponent
  rw [if_neg (by simp [nonEmpty, notDot])]
  by_cases isParent : comp = parent
  · obtain ⟨relative, allParents⟩ := climbs isParent
    subst relative
    have same : comp = ['.', '.'] := isParent
    simp only [same, ne_eq, not_true_eq_false, if_false]
    cases stack with
    | nil => rfl
    | cons top rest =>
      have topParent : top = ['.', '.'] := allParents top (List.mem_cons_self ..)
      simp [topParent]
  · have climbs : comp ≠ ['.', '.'] := isParent
    rw [if_pos climbs]

theorem pushAllStacked {rooted : Bool} :
    ∀ (comps : List (List Char)) {stack : List (List Char)},
      Stacked rooted (comps.reverse ++ stack) →
        comps.foldl (pushComponent rooted) stack = comps.reverse ++ stack
  | [], _, _ => rfl
  | c :: comps, stack, h => by
    have onStack : Stacked rooted (c :: stack) := by
      rw [List.reverse_cons, List.append_assoc, List.singleton_append] at h
      exact h.right
    rw [List.foldl_cons, pushStacked onStack, pushAllStacked comps (by simpa using h)]
    simp

theorem pushAllKeeps {rooted : Bool} :
    ∀ (pieces : List (List Char)) {stack : List (List Char)}, (∀ p ∈ pieces, '/' ∉ p) →
      Stacked rooted stack → Stacked rooted (pieces.foldl (pushComponent rooted) stack)
  | [], _, _, h => h
  | p :: pieces, _, noSlash, h =>
    pushAllKeeps pieces (fun q mem => noSlash q (List.mem_cons_of_mem _ mem))
      (h.push (noSlash p (List.mem_cons_self ..)))

theorem piecesNoSlash : ∀ (cs : List Char), ∀ p ∈ cs.splitOn '/', '/' ∉ p
  | [] => by simp [List.splitOn_nil]
  | c :: cs => by
    have more := piecesNoSlash cs
    rw [List.splitOn_cons_eq_if_modifyHead]
    split
    · intro p mem
      rcases List.mem_cons.mp mem with rfl | later
      · simp
      · exact more p later
    · rename_i notSlash
      cases pieces : cs.splitOn '/' with
      | nil => exact absurd pieces (List.splitOn_ne_nil _ _)
      | cons q rest =>
        rw [pieces] at more
        intro p mem
        simp only [List.modifyHead_cons, List.mem_cons] at mem
        rcases mem with rfl | later
        · simp only [List.mem_cons, not_or]
          exact ⟨fun same => notSlash (by simp [← same]), more q (List.mem_cons_self ..)⟩
        · exact more p (List.mem_cons_of_mem _ later)

theorem Stacked.proper {rooted : Bool} : ∀ {stack : List (List Char)}, Stacked rooted stack →
    ∀ c ∈ stack, Proper c
  | [], _, _, mem => absurd mem List.not_mem_nil
  | _ :: _, h, _, mem => by
    rcases List.mem_cons.mp mem with rfl | below
    · exact h.1
    · exact h.tail.proper _ below

theorem componentsStacked (cs : List Char) :
    Stacked (leadingSlashes cs != 0) (components cs).reverse := by
  rw [components, List.reverse_reverse]
  exact pushAllKeeps _ (piecesNoSlash cs) trivial

theorem leadingAbsolute {p : String} (absolute : isAbsolute p = true) : leadingSlashes p.toList ≠ 0 := by
  simp only [isAbsolute, beq_iff_eq, List.head?_eq_some_iff] at absolute
  obtain ⟨tail, whole⟩ := absolute
  rw [whole]
  unfold leadingSlashes
  split <;> simp_all

theorem leadingSmall (cs : List Char) : leadingSlashes cs ≤ 2 := by
  unfold leadingSlashes
  split <;> omega

def slashKind (n : Nat) : Nat := if n = 0 then 0 else if n = 2 then 2 else 1

theorem noSlashRun {cs : List Char} (unled : ∀ tail, cs = '/' :: tail → False) :
    cs.takeWhile (· == '/') = [] := by
  cases cs with
  | nil => rfl
  | cons c tail =>
    have other : c ≠ '/' := fun same => unled tail (by rw [same])
    simp [other]

theorem dropSlashes {cs : List Char} (unled : ∀ tail, cs = '/' :: tail → False) :
    cs.dropWhile (· == '/') = cs := by
  cases cs with
  | nil => rfl
  | cons c tail =>
    have other : c ≠ '/' := fun same => unled tail (by rw [same])
    simp [other]

theorem leadingSlashesRun (cs : List Char) :
    leadingSlashes cs = slashKind (cs.takeWhile (· == '/')).length := by
  unfold leadingSlashes
  split
  · simp [slashKind]
  · rename_i rest notThree
    simp [noSlashRun notThree, slashKind]
  · rename_i rest notThree notTwo
    simp [noSlashRun notTwo, slashKind]
  · rename_i notThree notTwo notOne
    simp [noSlashRun notOne, slashKind]

def render (lead : Nat) (comps : List (List Char)) : List Char :=
  let body := List.replicate lead '/' ++ ['/'].intercalate comps
  if body = [] then ['.'] else body

theorem normalizeCharsRender (cs : List Char) :
    normalizeChars cs = render (leadingSlashes cs) (components cs) := rfl

theorem intercalateProper {comps : List (List Char)} (proper : ∀ c ∈ comps, Proper c) :
    (∀ tail, ['/'].intercalate comps = '/' :: tail → False) ∧
      (['/'].intercalate comps = [] → comps = []) := by
  cases comps with
  | nil => simp
  | cons c rest =>
    obtain ⟨nonEmpty, -, noSlash⟩ := proper c (List.mem_cons_self ..)
    obtain ⟨d, ds, rfl⟩ := List.exists_cons_of_ne_nil nonEmpty
    rw [List.intercalate_cons_cons_left]
    refine ⟨fun tail same => noSlash ?_, fun same => by simp at same⟩
    simp only [List.cons.injEq] at same
    rw [← same.1]
    exact List.mem_cons_self ..

theorem slashRunOf {lead : Nat} {xs : List Char} (unled : ∀ tail, xs = '/' :: tail → False) :
    (List.replicate lead '/' ++ xs).takeWhile (· == '/') = List.replicate lead '/' := by
  rw [List.takeWhile_append_of_pos (by simp), noSlashRun unled, List.append_nil]

theorem leadingRender {lead : Nat} {comps : List (List Char)} (small : lead ≤ 2)
    (proper : ∀ c ∈ comps, Proper c) : leadingSlashes (render lead comps) = lead := by
  unfold render
  dsimp only
  split
  · rename_i empty
    -- only a relative path without components is written `.`
    have none : lead = 0 := (by simpa using congrArg List.length empty : lead = 0 ∧ _).1
    subst none
    rfl
  · rw [leadingSlashesRun, slashRunOf (intercalateProper proper).1, List.length_replicate]
    unfold slashKind
    split_ifs <;> omega

theorem splitSlashes (xs : List Char) :
    ∀ k, (List.replicate k '/' ++ xs).splitOn '/' = List.replicate k [] ++ xs.splitOn '/'
  | 0 => rfl
  | k + 1 => by
    rw [List.replicate_succ, List.cons_append, ← List.nil_append ('/' :: _),
      List.splitOn_append_cons_self, splitSlashes xs k, List.splitOn_nil]
    rfl

theorem pushEmpties {rooted : Bool} (stack : List (List Char)) :
    ∀ k, (List.replicate k []).foldl (pushComponent rooted) stack = stack
  | 0 => rfl
  | k + 1 => by
    rw [List.replicate_succ, List.foldl_cons, pushEmpties _ k]
    simp [pushComponent]

theorem componentsRender {lead : Nat} {comps : List (List Char)} (small : lead ≤ 2)
    (stacked : Stacked (lead != 0) comps.reverse) : components (render lead comps) = comps := by
  have proper : ∀ c ∈ comps, Proper c := fun c mem => stacked.proper c (List.mem_reverse.mpr mem)
  rw [components, leadingRender small proper]
  unfold render
  dsimp only
  split
  · rename_i empty
    have none : comps = [] := (intercalateProper proper).2 (List.append_eq_nil_iff.mp empty).2
    subst none
    rfl
  · rw [splitSlashes, List.foldl_append, pushEmpties]
    by_cases none : comps = []
    · subst none
      simp [List.splitOn_nil, pushComponent]
    · rw [List.splitOn_intercalate _ (fun c mem => (proper c mem).2.2) none,
        pushAllStacked comps (by simpa using stacked)]
      simp

theorem leadingNormalize (cs : List Char) : leadingSlashes (normalizeChars cs) = leadingSlashes cs :=
  leadingRender (leadingSmall cs) fun c mem =>
    (componentsStacked cs).proper c (List.mem_reverse.mpr mem)

theorem componentsNormalize (cs : List Char) : components (normalizeChars cs) = components cs :=
  componentsRender (leadingSmall cs) (componentsStacked cs)

theorem normalizeNormalize (p : String) : normalize (normalize p) = normalize p := by
  rw [normalize, normalize, String.toList_ofList, normalizeCharsRender (normalizeChars _),
    leadingNormalize, componentsNormalize, ← normalizeCharsRender]

theorem normalizeNormalJoin (a b : String) : normalize (normalJoin a b) = normalJoin a b :=
  normalizeNormalize (join a b)

theorem renderInjective {lead lead' : Nat} {comps comps' : List (List Char)} (small : lead ≤ 2)
    (small' : lead' ≤ 2) (stacked : Stacked (lead != 0) comps.reverse)
    (stacked' : Stacked (lead' != 0) comps'.reverse) (same : render lead comps = render lead' comps') :
    lead = lead' ∧ comps = comps' := by
  have proper : ∀ c ∈ comps, Proper c := fun c mem => stacked.proper c (List.mem_reverse.mpr mem)
  have proper' : ∀ c ∈ comps', Proper c := fun c mem => stacked'.proper c (List.mem_reverse.mpr mem)
  refine ⟨?_, ?_⟩
  · rw [← leadingRender small proper, ← leadingRender small' proper', same]
  · rw [← componentsRender small stacked, ← componentsRender small' stacked', same]

theorem renderBody {lead : Nat} {comps : List (List Char)} (notDot : ¬(lead = 0 ∧ comps = []))
    (proper : ∀ c ∈ comps, Proper c) :
    render lead comps = List.replicate lead '/' ++ ['/'].intercalate comps := by
  unfold render
  dsimp only
  rw [if_neg]
  intro empty
  obtain ⟨noSlashes, noComps⟩ := List.append_eq_nil_iff.mp empty
  exact notDot ⟨by simpa using noSlashes, (intercalateProper proper).2 noComps⟩

theorem intercalateAppend {front back : List (List Char)} (hf : front ≠ []) (hb : back ≠ []) :
    ['/'].intercalate (front ++ back) = ['/'].intercalate front ++ '/' :: ['/'].intercalate back := by
  induction front with
  | nil => exact absurd rfl hf
  | cons c rest ih =>
    cases rest with
    | nil =>
      obtain ⟨b, bs, rfl⟩ := List.exists_cons_of_ne_nil hb
      simp
    | cons d more =>
      rw [List.cons_append, List.cons_append, List.intercalate_cons_cons, List.intercalate_cons_cons,
        ← List.cons_append, ih (by simp)]
      simp

theorem unledAppend {xs : List Char} (unled : ∀ tail, xs = '/' :: tail → False) (full : xs ≠ [])
    (ys : List Char) : ∀ tail, xs ++ ys = '/' :: tail → False := by
  obtain ⟨x, rest, rfl⟩ := List.exists_cons_of_ne_nil full
  intro tail same
  simp only [List.cons_append, List.cons.injEq] at same
  exact unled rest (by rw [same.1])

theorem slashRunLength {lead : Nat} {xs : List Char} (unled : ∀ tail, xs = '/' :: tail → False) :
    ((List.replicate lead '/' ++ xs).takeWhile (· == '/')).length = lead := by
  rw [slashRunOf unled, List.length_replicate]

theorem extendsOfCut {lr lp : Nat} {cr cp : List (List Char)} (properR : ∀ c ∈ cr, Proper c)
    (properP : ∀ c ∈ cp, Proper c) (named : cr ≠ []) {t : List Char}
    (cut : render lr cr ++ '/' :: t = render lp cp) : lp = lr ∧ cp = cr ++ t.splitOn '/' := by
  rw [renderBody (by simp [named]) properR] at cut
  have headR := intercalateProper properR
  have bodyR : ['/'].intercalate cr ≠ [] := fun empty => named (headR.2 empty)
  by_cases dot : lp = 0 ∧ cp = []
  · -- the path `.` is too short to hold a directory and a slash
    obtain ⟨rfl, rfl⟩ := dot
    have lengths := congrArg List.length cut
    rw [show render 0 [] = ['.'] from rfl] at lengths
    simp only [List.append_assoc, List.length_append, List.length_replicate, List.length_cons,
      List.length_nil] at lengths
    have : 0 < (['/'].intercalate cr).length := List.length_pos_iff.mpr bodyR
    omega
  rw [renderBody dot properP] at cut
  have headP := intercalateProper properP
  have lead : lp = lr := by
    have runs := congrArg (fun cs => (cs.takeWhile (· == '/')).length) cut
    simp only [List.append_assoc] at runs
    rw [slashRunLength (unledAppend headR.1 bodyR _), slashRunLength headP.1] at runs
    exact runs.symm
  subst lead
  refine ⟨rfl, ?_⟩
  have rest := List.append_cancel_left (by simpa only [List.append_assoc] using cut)
  by_cases none : cp = []
  · subst none
    simp at rest
  rw [← List.splitOn_intercalate '/' (fun c mem => (properP c mem).2.2) none, ← rest,
    List.splitOn_append_cons_self, List.splitOn_intercalate '/' (fun c mem => (properR c mem).2.2) named]

theorem cutOfExtends {lead : Nat} {cr extra : List (List Char)} (properR : ∀ c ∈ cr, Proper c)
    (properE : ∀ c ∈ extra, Proper c) (named : cr ≠ []) (more : extra ≠ []) :
    render lead (cr ++ extra) = render lead cr ++ '/' :: ['/'].intercalate extra := by
  have proper : ∀ c ∈ cr ++ extra, Proper c := by
    intro c mem
    rcases List.mem_append.mp mem with mem | mem
    · exact properR c mem
    · exact properE c mem
  rw [renderBody (by simp [named]) proper, renderBody (by simp [named]) properR,
    intercalateAppend named more, List.append_assoc]

theorem slashRootCut {k lp : Nat} {cp : List (List Char)} (rooted : k = 1 ∨ k = 2) (smallP : lp ≤ 2)
    (properP : ∀ c ∈ cp, Proper c) (kinds : k = 1 → lp ≠ 2) :
    ((List.replicate k '/').isPrefixOf (render lp cp) ↔ lp = k) ∧
      (lp = k → (render lp cp).drop k = ['/'].intercalate cp) := by
  have body : lp = k → render lp cp = List.replicate k '/' ++ ['/'].intercalate cp := by
    intro same
    subst same
    exact renderBody (by omega) properP
  refine ⟨⟨fun found => ?_, fun same => ?_⟩, fun same => by rw [body same, List.drop_left']; simp⟩
  · obtain ⟨u, whole⟩ := List.isPrefixOf_iff_prefix.mp found
    by_cases dot : lp = 0 ∧ cp = []
    · obtain ⟨rfl, rfl⟩ := dot
      rw [show render 0 [] = ['.'] from rfl] at whole
      rcases rooted with rfl | rfl <;> simp at whole
    rw [renderBody dot properP] at whole
    have runs := congrArg (fun cs => (cs.takeWhile (· == '/')).length) whole
    rw [slashRunLength (intercalateProper properP).1, List.takeWhile_append_of_pos (by simp)] at runs
    simp only [List.length_append, List.length_replicate] at runs
    omega
  · rw [body same]
    exact List.isPrefixOf_iff_prefix.mpr (List.prefix_append _ _)

theorem intercalateLast : ∀ {comps : List (List Char)}, (∀ c ∈ comps, Proper c) →
    (['/'].intercalate comps).getLast? ≠ some '/'
  | [], _ => by simp
  | [c], proper => fun last => (proper c (List.mem_singleton_self c)).2.2 (by
      rw [List.intercalate_singleton] at last
      exact List.mem_of_getLast? last)
  | c :: d :: rest, proper => by
    rw [List.intercalate_cons_cons, List.getLast?_append]
    have more := @intercalateLast (d :: rest) fun e mem => proper e (List.mem_cons_of_mem _ mem)
    cases later : (['/'].intercalate (d :: rest)).getLast? with
    | none =>
      -- the components after the first are not empty, so neither is their text
      have empty := (intercalateProper fun e mem => proper e (List.mem_cons_of_mem _ mem)).2
        (List.getLast?_eq_none_iff.mp later)
      simp at empty
    | some x => simpa [later] using more

def Below (p root : String) : Prop :=
  leadingSlashes (normalize p).toList = leadingSlashes (normalize root).toList ∧
    components (normalize root).toList <+: components (normalize p).toList

instance (p root : String) : Decidable (Below p root) := by
  unfold Below
  infer_instance

theorem normalizeToList (p : String) :
    (normalize p).toList = render (leadingSlashes p.toList) (components p.toList) := by
  rw [normalize, String.toList_ofList, normalizeCharsRender]

theorem belowIff (p root : String) :
    Below p root ↔ leadingSlashes p.toList = leadingSlashes root.toList ∧
      components root.toList <+: components p.toList := by
  simp only [Below, normalize, String.toList_ofList, leadingNormalize, componentsNormalize]

theorem renderLast {lead : Nat} {comps : List (List Char)} (named : comps ≠ [])
    (proper : ∀ c ∈ comps, Proper c) : (render lead comps).getLast? ≠ some '/' := by
  rw [renderBody (by simp [named]) proper, List.getLast?_append]
  cases last : (['/'].intercalate comps).getLast? with
  | none => exact absurd ((intercalateProper proper).2 (List.getLast?_eq_none_iff.mp last)) named
  | some x => simpa [last] using intercalateLast proper

theorem slashRunAppend {a rest : List Char}
    (stop : (a.takeWhile (· == '/')).length ≠ a.length ∨ ∀ tail, rest = '/' :: tail → False) :
    (a ++ rest).takeWhile (· == '/') = a.takeWhile (· == '/') := by
  rw [List.takeWhile_append]
  split
  · rename_i allSlashes
    rcases stop with other | unled
    · exact absurd allSlashes other
    · rw [noSlashRun unled, List.append_nil]
      exact ((List.takeWhile_prefix _).eq_of_length allSlashes).symm
  · rfl

theorem joinedPieces (a b : List Char) {rooted : Bool} :
    ((a ++ '/' :: b).splitOn '/').foldl (pushComponent rooted) [] =
      (b.splitOn '/').foldl (pushComponent rooted) ((a.splitOn '/').foldl (pushComponent rooted) []) := by
  rw [List.splitOn_append_cons_self, List.foldl_append]

theorem intercalateRelative {extra : List (List Char)} (proper : ∀ c ∈ extra, Proper c) :
    isAbsolute (String.ofList (['/'].intercalate extra)) = false := by
  simp only [isAbsolute, String.toList_ofList, beq_eq_false_iff_ne, ne_eq, List.head?_eq_some_iff]
  rintro ⟨tail, same⟩
  exact (intercalateProper proper).1 tail same

theorem intercalateNotDot {extra : List (List Char)} (proper : ∀ c ∈ extra, Proper c)
    (more : extra ≠ []) : String.ofList (['/'].intercalate extra) ≠ "." := by
  intro dot
  have text : ['/'].intercalate extra = ['.'] := String.ofList_injective (dot.trans rfl)
  have pieces := List.splitOn_intercalate '/' (fun c mem => (proper c mem).2.2) more
  rw [text] at pieces
  have one : ['.'] ∈ extra := by rw [← pieces]; decide
  exact (proper _ one).2.1 rfl

theorem normalJoinPieces {root : String} {b : List Char} (full : root ≠ "")
    (unled : ∀ tail, b = '/' :: tail → False) :
    (normalJoin root (String.ofList b)).toList =
      render (leadingSlashes root.toList) (((b.splitOn '/').foldl
        (pushComponent (leadingSlashes root.toList != 0)) (components root.toList).reverse).reverse) := by
  have relative : isAbsolute (String.ofList b) = false := by
    simp only [isAbsolute, String.toList_ofList, beq_eq_false_iff_ne, ne_eq, List.head?_eq_some_iff]
    rintro ⟨tail, same⟩
    exact unled tail same
  have rootText : root.toList ≠ [] := fun empty => full (String.toList_inj.mp (by simpa using empty))
  obtain ⟨front, joined, sameRun, samePieces⟩ : ∃ front : List Char,
      (join root (String.ofList b)).toList = front ++ '/' :: b ∧
      (front ++ '/' :: b).takeWhile (· == '/') = root.toList.takeWhile (· == '/') ∧
      ∀ rooted, (front.splitOn '/').foldl (pushComponent rooted) [] =
        (root.toList.splitOn '/').foldl (pushComponent rooted) [] := by
    by_cases ends : root.toList.getLast? = some '/'
    · obtain ⟨front, whole⟩ := List.getLast?_eq_some_iff.mp ends
      refine ⟨front, ?_, ?_, fun rooted => ?_⟩
      · simp [join, relative, String.toList_append, whole]
      · rw [whole, show front ++ '/' :: b = (front ++ ['/']) ++ b by simp,
          slashRunAppend (.inr unled)]
      · rw [whole, List.splitOn_append_cons_self, List.foldl_append, List.splitOn_nil]
        simp [pushComponent]
    · refine ⟨root.toList, ?_, ?_, fun _ => rfl⟩
      · have notEmpty : root.isEmpty = false := by simpa [String.isEmpty_iff] using full
        simp [join, relative, ends, notEmpty, String.toList_append]
      · refine slashRunAppend (.inl fun allSlashes => ends ?_)
        have same := (List.takeWhile_prefix (· == '/')).eq_of_length allSlashes
        obtain ⟨c, last⟩ := Option.ne_none_iff_exists'.mp (by simpa using rootText :
          root.toList.getLast? ≠ none)
        have inRun : c ∈ root.toList.takeWhile (· == '/') := by
          rw [same]
          exact List.mem_of_getLast? last
        have slash := List.mem_takeWhile_imp inRun
        rw [last, eq_of_beq slash]
  have lead : leadingSlashes (join root (String.ofList b)).toList = leadingSlashes root.toList := by
    rw [leadingSlashesRun, leadingSlashesRun, joined, sameRun]
  rw [normalJoin, normalize, String.toList_ofList, normalizeCharsRender, lead, components, lead,
    joined, joinedPieces, samePieces, ← List.reverse_reverse ((root.toList.splitOn '/').foldl _ []),
    ← components]

theorem normalJoinExtends {root : String} {extra : List (List Char)} (full : root ≠ "")
    (more : extra ≠ []) (proper : ∀ c ∈ extra, Proper c)
    (stacked : Stacked (leadingSlashes root.toList != 0)
      (extra.reverse ++ (components root.toList).reverse)) :
    normalJoin root (String.ofList (['/'].intercalate extra)) =
      String.ofList (render (leadingSlashes root.toList) (components root.toList ++ extra)) := by
  have text := (intercalateProper proper)
  rw [← String.ofList_toList (s := normalJoin _ _),
    normalJoinPieces full text.1,
    List.splitOn_intercalate '/' (fun c mem => (proper c mem).2.2) more, pushAllStacked extra stacked]
  simp

theorem normalJoinDot {root : String} (full : root ≠ "") : normalJoin root "." = normalize root := by
  rw [← String.ofList_toList (s := normalJoin _ _), show "." = String.ofList ['.'] from rfl,
    normalJoinPieces full (by simp), List.splitOn_eq_singleton (by decide)]
  simp [pushComponent, normalize, normalizeCharsRender]

def GoesDown (d : String) : Prop :=
  isAbsolute d = false ∧ normalize d = d ∧ ∀ c ∈ d.toList.splitOn '/', c ≠ ['.'] ∧ c ≠ parent

theorem Stacked.noParent : ∀ {stack : List (List Char)}, Stacked true stack → ∀ c ∈ stack, c ≠ parent
  | [], _, _, mem => absurd mem List.not_mem_nil
  | _ :: _, h, _, mem => by
    rcases List.mem_cons.mp mem with rfl | below
    · exact fun isParent => absurd (h.2.1 isParent).1 (by decide)
    · exact h.tail.noParent _ below

theorem Stacked.ofNoParent {rooted rooted' : Bool} : ∀ {stack : List (List Char)},
    Stacked rooted stack → (∀ c ∈ stack, c ≠ parent) → Stacked rooted' stack
  | [], _, _ => trivial
  | c :: _, h, noParents =>
    ⟨h.1, fun isParent => absurd isParent (noParents c (List.mem_cons_self ..)),
      h.tail.ofNoParent fun q mem => noParents q (List.mem_cons_of_mem _ mem)⟩

theorem goesDownComponents {comps : List (List Char)} (more : comps ≠ [])
    (stacked : Stacked true comps.reverse) : GoesDown (String.ofList (['/'].intercalate comps)) := by
  have proper : ∀ c ∈ comps, Proper c := fun c mem => stacked.proper c (List.mem_reverse.mpr mem)
  have noParents : ∀ c ∈ comps, c ≠ parent :=
    fun c mem => stacked.noParent c (List.mem_reverse.mpr mem)
  have relative : Stacked (0 != 0) comps.reverse :=
    stacked.ofNoParent fun c mem => noParents c (List.mem_reverse.mp mem)
  have written : ['/'].intercalate comps = render 0 comps := by
    rw [renderBody (by simp [more]) proper]
    simp
  refine ⟨intercalateRelative proper, ?_, fun c mem => ?_⟩
  · rw [normalize, String.toList_ofList, normalizeCharsRender, written,
      leadingRender (Nat.zero_le 2) proper, componentsRender (Nat.zero_le 2) relative]
  · rw [String.toList_ofList, List.splitOn_intercalate '/' (fun c mem => (proper c mem).2.2) more] at mem
    exact ⟨(proper c mem).2.1, noParents c mem⟩

theorem dirNameRender {lead : Nat} {front : List (List Char)} {last : List Char}
    (proper : ∀ c ∈ front ++ [last], Proper c) :
    dirName (String.ofList (render lead (front ++ [last]))) =
      if lead = 0 ∧ front = [] then "" else String.ofList (render lead front) := by
  have lastProper := proper last (by simp)
  have lastNoSlash : ∀ c ∈ last.reverse, (c != '/') = true := by
    intro c mem
    have inLast : c ∈ last := List.mem_reverse.mp mem
    have other : c ≠ '/' := fun same => lastProper.2.2 (same ▸ inLast)
    simpa using other
  rw [renderBody (by simp) proper]
  unfold dirName
  simp only [String.toList_ofList]
  by_cases none : front = []
  · subst none
    simp only [List.nil_append, List.intercalate_singleton, List.reverse_append,
      List.reverse_replicate, List.dropWhile_append_of_pos lastNoSlash]
    have slashes : (List.replicate lead '/').dropWhile (· != '/') = List.replicate lead '/' := by simp
    rw [slashes, List.reverse_replicate, if_pos (by simp)]
    by_cases zero : lead = 0
    · subst zero
      rfl
    · rw [if_neg (by simp [zero]), renderBody (by simp [zero]) (by simp)]
      simp
  · -- the last slash is the one before the last component, and the text before it ends in none
    have frontProper : ∀ c ∈ front, Proper c := fun c mem => proper c (List.mem_append_left _ mem)
    have frontText := intercalateProper frontProper
    rw [intercalateAppend none (List.cons_ne_nil _ _), List.intercalate_singleton]
    have reversed : (List.replicate lead '/' ++ (['/'].intercalate front ++ '/' :: last)).reverse =
        last.reverse ++ '/' :: ((['/'].intercalate front).reverse ++ List.replicate lead '/') := by
      simp
    have endsOther : ∀ tail, (['/'].intercalate front).reverse ++ List.replicate lead '/' =
        '/' :: tail → False := by
      refine unledAppend (fun tail same => intercalateLast frontProper ?_) ?_ _
      · rw [← List.head?_reverse, same]
        rfl
      · simpa using fun empty => none (frontText.2 empty)
    have other : ∃ c ∈ ['/'].intercalate front, c ≠ '/' := by
      obtain ⟨c, cs, whole⟩ := List.exists_cons_of_ne_nil (fun empty => none (frontText.2 empty))
      exact ⟨c, by simp [whole], fun same => frontText.1 cs (by rw [whole, same])⟩
    rw [reversed, List.dropWhile_append_of_pos lastNoSlash, List.dropWhile_cons_of_neg (by simp),
      if_neg, if_neg (by simp [none]), List.reverse_reverse, List.dropWhile_cons_of_pos (by simp),
      dropSlashes endsOther, renderBody (by simp [none]) frontProper]
    · simp
    · obtain ⟨c, mem, notSlash⟩ := other
      simp only [List.reverse_cons, List.reverse_append, List.reverse_reverse, List.all_eq_true,
        not_forall]
      exact ⟨c, by simp [mem], by simpa using notSlash⟩

section Cut

variable (p root : String)

theorem relativeToComponents
    (notDot : ¬(leadingSlashes root.toList = 0 ∧ components root.toList = []))
    (sameKind : leadingSlashes root.toList = 1 → components root.toList = [] →
      leadingSlashes p.toList ≠ 2) :
    relativeTo p root =
      if leadingSlashes p.toList = leadingSlashes root.toList ∧
          components root.toList <+: components p.toList then
        some (if components p.toList = components root.toList then "."
          else String.ofList (['/'].intercalate
            ((components p.toList).drop (components root.toList).length)))
      else none := by
  have stackedP := componentsStacked p.toList
  have stackedR := componentsStacked root.toList
  have properP : ∀ c ∈ components p.toList, Proper c :=
    fun c mem => stackedP.proper c (List.mem_reverse.mpr mem)
  have properR : ∀ c ∈ components root.toList, Proper c :=
    fun c mem => stackedR.proper c (List.mem_reverse.mpr mem)
  have smallP := leadingSmall p.toList
  have smallR := leadingSmall root.toList
  unfold relativeTo
  simp only [normalizeToList]
  generalize leadingSlashes p.toList = lp at *
  generalize leadingSlashes root.toList = lr at *
  generalize components p.toList = cp at *
  generalize components root.toList = cr at *
  by_cases same : render lp cp = render lr cr
  · obtain ⟨rfl, rfl⟩ := renderInjective smallP smallR stackedP stackedR same
    simp
  have differ : ¬(lp = lr ∧ cp = cr) := fun ⟨kind, comps⟩ => same (by rw [kind, comps])
  rw [if_neg same]
  by_cases named : cr = []
  · -- a root of slashes alone, `/` or `//`: the slashes are cut off
    subst named
    have rooted : lr = 1 ∨ lr = 2 := by
      have : lr ≠ 0 := fun zero => notDot ⟨zero, rfl⟩
      omega
    have slashes : render lr [] = List.replicate lr '/' := by
      rw [renderBody notDot (by simp)]
      simp
    have ends : (List.replicate lr '/').getLast? = some '/' := by
      rcases rooted with rfl | rfl <;> rfl
    obtain ⟨found, dropped⟩ := slashRootCut rooted smallP properP fun one => sameKind one rfl
    have cutAt : (if (some '/' == some '/') = true then List.replicate lr '/'
        else List.replicate lr '/' ++ ['/']) = List.replicate lr '/' := if_pos (by decide)
    rw [slashes, ends, cutAt]
    by_cases kind : lp = lr
    · have more : cp ≠ [] := fun none => differ ⟨kind, none⟩
      rw [if_pos (found.mpr kind), List.length_replicate, dropped kind,
        if_pos ⟨kind, List.nil_prefix⟩, if_neg more]
      simp
    · rw [if_neg (fun h => kind (found.mp h)), if_neg (fun h => kind h.1)]
  · -- a root with components is cut off with the slash after it
    have cutWith : (if ((render lr cr).getLast? == some '/') = true then render lr cr
        else render lr cr ++ ['/']) = render lr cr ++ ['/'] :=
      if_neg (by simpa using renderLast named properR)
    rw [cutWith]
    by_cases found : (render lr cr ++ ['/']).isPrefixOf (render lp cp) = true
    · obtain ⟨t, cut⟩ := List.isPrefixOf_iff_prefix.mp found
      obtain ⟨kind, comps⟩ := extendsOfCut properR properP named (by simpa using cut)
      rw [if_pos found, if_pos ⟨kind, comps ▸ List.prefix_append _ _⟩,
        if_neg (by rw [comps]; simp), ← cut, List.drop_left, comps, List.drop_left,
        List.intercalate_splitOn]
    · rw [if_neg found, if_neg]
      rintro ⟨kind, extra, comps⟩
      have more : extra ≠ [] := fun none => differ ⟨kind, by rw [← comps, none, List.append_nil]⟩
      have properE : ∀ c ∈ extra, Proper c :=
        fun c mem => properP c (comps ▸ List.mem_append_right _ mem)
      apply found
      rw [← comps, kind, cutOfExtends properR properE named more]
      exact List.isPrefixOf_iff_prefix.mpr ⟨['/'].intercalate extra, by simp⟩

end Cut

theorem relativeToBelow (p root : String) (notDot : normalize root ≠ ".")
    (sameKind : normalize root = "/" → leadingSlashes (normalize p).toList ≠ 2) :
    ((relativeTo p root).isSome ↔ Below p root) ∧
      (relativeTo p root = some "." ↔ normalize p = normalize root) ∧
      ∀ s, relativeTo p root = some s → s ≠ "." →
        ¬isAbsolute s ∧ normalJoin root s = normalize p := by
  have stackedP := componentsStacked p.toList
  have stackedR := componentsStacked root.toList
  have properP : ∀ c ∈ components p.toList, Proper c :=
    fun c mem => stackedP.proper c (List.mem_reverse.mpr mem)
  have smallP := leadingSmall p.toList
  have smallR := leadingSmall root.toList
  have normalP : normalize p = String.ofList (render (leadingSlashes p.toList) (components p.toList)) :=
    rfl
  have normalR : normalize root =
      String.ofList (render (leadingSlashes root.toList) (components root.toList)) := rfl
  have equalIff : normalize p = normalize root ↔ leadingSlashes p.toList = leadingSlashes root.toList ∧
      components p.toList = components root.toList := by
    rw [normalP, normalR, String.ofList_inj]
    exact ⟨renderInjective smallP smallR stackedP stackedR, fun ⟨kind, comps⟩ => by rw [kind, comps]⟩
  have notDot' : ¬(leadingSlashes root.toList = 0 ∧ components root.toList = []) :=
    fun ⟨kind, comps⟩ => notDot (by rw [normalR, kind, comps]; decide)
  have sameKind' : leadingSlashes root.toList = 1 → components root.toList = [] →
      leadingSlashes p.toList ≠ 2 := fun kind comps => by
    have := sameKind (by rw [normalR, kind, comps]; decide)
    rwa [normalizeToList, leadingRender smallP properP] at this
  rw [relativeToComponents p root notDot' sameKind', belowIff]
  refine ⟨by split_ifs <;> simp [*], ?_, fun s found notDotS => ?_⟩
  · split_ifs with below same
    · simp [equalIff, below.1, same]
    · refine ⟨fun dot => absurd (Option.some.inj dot) ?_, fun equal => absurd (equalIff.mp equal).2 same⟩
      obtain ⟨extra, whole⟩ := below.2
      rw [← whole, List.drop_left]
      exact intercalateNotDot (fun c mem => properP c (whole ▸ List.mem_append_right _ mem))
        (fun none => same (by rw [← whole, none, List.append_nil]))
    · simp only [false_iff]
      intro equal
      obtain ⟨kind, comps⟩ := equalIff.mp equal
      exact below ⟨kind, by rw [comps]⟩
  · split_ifs at found with below same
    · exact absurd (Option.some.inj found).symm notDotS
    · obtain ⟨extra, whole⟩ := below.2
      have properE : ∀ c ∈ extra, Proper c :=
        fun c mem => properP c (whole ▸ List.mem_append_right _ mem)
      have more : extra ≠ [] := fun none => same (by rw [← whole, none, List.append_nil])
      rw [← whole, List.drop_left] at found
      obtain rfl := Option.some.inj found
      refine ⟨by simp [intercalateRelative properE], ?_⟩
      have full : root ≠ "" := fun empty => notDot' (by subst empty; exact ⟨rfl, rfl⟩)
      have stacked : Stacked (leadingSlashes root.toList != 0)
          (extra.reverse ++ (components root.toList).reverse) := by
        rw [← List.reverse_append, whole, ← below.1]
        exact stackedP
      rw [normalJoinExtends full more properE stacked, normalP, whole, below.1]

theorem relativeToBelowSub :
    normalize "/w/./" ≠ "." ∧
      (normalize "/w/./" = "/" → leadingSlashes (normalize "/w/a/../sub//Cargo.toml").toList ≠ 2) ∧
      ((relativeTo "/w/a/../sub//Cargo.toml" "/w/./").isSome ↔ Below "/w/a/../sub//Cargo.toml" "/w/./") ∧
      (relativeTo "/w/a/../sub//Cargo.toml" "/w/./" = some "." ↔
        normalize "/w/a/../sub//Cargo.toml" = normalize "/w/./") ∧
      ∀ s, relativeTo "/w/a/../sub//Cargo.toml" "/w/./" = some s → s ≠ "." →
        ¬isAbsolute s ∧ normalJoin "/w/./" s = normalize "/w/a/../sub//Cargo.toml" :=
  ⟨by decide, by decide, relativeToBelow "/w/a/../sub//Cargo.toml" "/w/./" (by decide) (by decide)⟩

theorem relativeToMissesRoots :
    (relativeTo "a" "." = none ∧ Below "a" ".") ∧
      (relativeTo "//x" "/" = some "/x" ∧ ¬Below "//x" "/") := by
  refine ⟨⟨by decide, ?_⟩, by decide, ?_⟩
  · rw [belowIff]
    decide
  · rw [belowIff]
    decide

end Maketree.Path
