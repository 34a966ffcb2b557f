import Mathlib
import Maketree.Proofs.Constructs
import Maketree.Proofs.Rules
/-! What an assignment changes: only the name it sets, without blanks or operator, and that name's
flavor; and the name an `export` line stores its value under. -/
namespace Maketree

open Text Journal

section Variables

theorem lookupCons (k m w : String) (rest : List (String × String)) :
    ((m, w) :: rest).lookup k = if k = m then some w else rest.lookup k := by
  cases same : k == m
  · have other : k ≠ m := by simpa using same
    simp [List.lookup, same, other]
  · have here : k = m := by simpa using same
    simp [List.lookup, here]

theorem lookupPutValue (n v k : String) : ∀ vs : List (String × String),
    (putValue n v vs).lookup k = if k = n then some v else vs.lookup k
  | [] => by simp [putValue]
  | (m, w) :: rest => by
    unfold putValue
    by_cases here : n = m
    · subst here
      by_cases same : k = n <;> simp [lookupCons, same]
    by_cases before : n < m
    · simp [lookupCons, here, before]
    · rw [if_neg here, if_neg before, lookupCons, lookupCons, lookupPutValue n v k rest]
      by_cases same : k = m
      · have other : k ≠ n := fun kn => here (kn.symm.trans same)
        simp only [if_pos same, if_neg other]
      · simp [same]

theorem memInsertName (n k : String) : ∀ ms : List String, k ∈ insertName n ms ↔ k = n ∨ k ∈ ms
  | [] => by simp [insertName]
  | m :: rest => by
    unfold insertName
    by_cases here : n = m
    · subst here
      simp
    by_cases before : n < m
    · simp [here, before]
    · simp only [here, before, if_false, List.mem_cons, memInsertName n k rest]
      tauto

def assignOps : List (List Char) := [[], ['?'], [':'], [':', ':'], ['+']]

def assignedValue (op : List Char) (old : Option String) (value : String) : String :=
  match op, old with
  | ['+'], some old => old ++ " " ++ value
  | _, _ => value

def Context.assigned (ctx : Context) (name : String) (op : List Char) (value : String) : Context :=
  { ctx with
    values := putValue name (assignedValue op (ctx.get? name) value) ctx.values
    modifiable := if op = ['?'] then insertName name ctx.modifiable else ctx.modifiable
    simpleExpanded :=
      if op = [':'] ∨ op = [':', ':'] then insertName name ctx.simpleExpanded else ctx.simpleExpanded }

section Assigned

variable (ctx : Context) (name : String) (op : List Char) (value k : String)

theorem Context.assignedGet : (ctx.assigned name op value).get? k =
    if k = name then some (assignedValue op (ctx.get? name) value) else ctx.get? k :=
  lookupPutValue _ _ _ _

theorem Context.assignedModifiable :
    k ∈ (ctx.assigned name op value).modifiable ↔ k ∈ ctx.modifiable ∨ op = ['?'] ∧ k = name := by
  by_cases marked : op = ['?'] <;> simp [Context.assigned, marked, memInsertName, or_comm]

theorem Context.assignedSimple :
    k ∈ (ctx.assigned name op value).simpleExpanded ↔
      k ∈ ctx.simpleExpanded ∨ (op = [':'] ∨ op = [':', ':']) ∧ k = name := by
  by_cases marked : op = [':'] ∨ op = [':', ':']
  · rw [Context.assigned, if_pos marked, memInsertName]
    simp [marked, or_comm]
  · simp [Context.assigned, marked]

end Assigned

end Variables

section LeftSide

/-! The left side of an assignment, its name, blanks and operator, as `Context.set` reads it. -/

variable {name blanks op : List Char}

set_option maxRecDepth 4096 in
theorem operatorsNotNames :
    isNameChar '?' = false ∧ isNameChar ':' = false ∧ isNameChar '+' = false ∧ isNameChar '=' = false := by
  decide

theorem nameSolid {c : Char} (named : isNameChar c = true) : isBlank c = false := by
  cases blank : isBlank c with
  | false => rfl
  | true => rw [blankNotName blank] at named; cases named

theorem dropTrailingAppend {p : Char → Bool} {xs ys : List Char} (all : ∀ c ∈ ys, p c = true)
    (stop : ∀ c ∈ xs.getLast?, p c = false) : ((xs ++ ys).reverse.dropWhile p).reverse = xs := by
  rw [List.reverse_append, List.dropWhile_append_of_pos (by simpa using all)]
  cases ends : xs.reverse with
  | nil => simp_all
  | cons c rest =>
    have last : p c = false := stop c (by rw [← List.head?_reverse, ends]; rfl)
    rw [List.dropWhile_cons_of_neg (by simp [last]), ← ends, List.reverse_reverse]

theorem dropTrailingBlanksAppend {xs ys : List Char} (blank : ∀ c ∈ ys, isBlank c = true)
    (solid : ∀ c ∈ xs.getLast?, isBlank c = false) : dropTrailingBlanks (xs ++ ys) = xs :=
  dropTrailingAppend blank solid

theorem opChars (operator : op ∈ assignOps) : ∀ c ∈ op, c = '?' ∨ c = ':' ∨ c = '+' := by
  simp only [assignOps, List.mem_cons, List.not_mem_nil, or_false] at operator
  rcases operator with rfl | rfl | rfl | rfl | rfl <;> simp

theorem nameLast (named : name ≠ []) (nameChars : ∀ c ∈ name, isNameChar c = true) :
    ∃ x, name.getLast? = some x ∧ isNameChar x = true :=
  ⟨name.getLast named, List.getLast?_eq_some_getLast named, nameChars _ (List.getLast_mem named)⟩

theorem trimLeftSide (named : name ≠ []) (nameChars : ∀ c ∈ name, isNameChar c = true)
    (blank : ∀ c ∈ blanks, isBlank c = true) (operator : op ∈ assignOps) :
    trim (String.ofList (name ++ blanks ++ op)) =
      String.ofList (if op = [] then name else name ++ blanks ++ op) := by
  obtain ⟨first, more, whole⟩ := List.exists_cons_of_ne_nil named
  have lead : ∀ c ∈ (name ++ blanks ++ op).head?, isBlank c = false := by
    intro c mem
    rw [whole] at mem
    simp only [List.cons_append, List.head?_cons, Option.mem_def, Option.some.injEq] at mem
    exact nameSolid (nameChars c (by rw [whole, mem]; simp))
  obtain ⟨x, last, lastName⟩ := nameLast named nameChars
  simp only [trim, String.toList_ofList, trimChars, dropBlanksLead lead]
  congr 1
  split
  · rename_i none
    subst none
    rw [List.append_nil, dropTrailingBlanksAppend blank (by simpa [last] using nameSolid lastName)]
  · rename_i some
    have solid : ∀ c ∈ (name ++ blanks ++ op).getLast?, isBlank c = false := by
      intro c mem
      have inOp : c ∈ op := by
        rw [List.getLast?_append_of_ne_nil _ some] at mem
        exact List.mem_of_getLast? mem
      rcases opChars operator c inOp with rfl | rfl | rfl <;> decide
    simpa using @dropTrailingBlanksAppend _ [] (by simp) solid

theorem endsWithOf (c : Char) (cs : List Char) :
    Context.endsWith c (String.ofList cs) = (cs.getLast? == some c) := by
  simp [Context.endsWith]

theorem setStages (ctx : Context) (raw value : String) :
    ctx.set raw value =
      let p := Context.markSimple (Context.markConditional (trim raw, ctx))
      let q := Context.readAppend p.2 p.1 value
      (q.1, { p.2 with values := putValue q.1 q.2 p.2.values }) := rfl

theorem setAssignment (ctx : Context) (value : String) (named : name ≠ [])
    (nameChars : ∀ c ∈ name, isNameChar c = true) (blank : ∀ c ∈ blanks, isBlank c = true)
    (operator : op ∈ assignOps) :
    ctx.set (String.ofList (name ++ blanks ++ op)) value =
      (String.ofList name, ctx.assigned (String.ofList name) op value) := by
  obtain ⟨x, last, lastName⟩ := nameLast named nameChars
  -- the name ends in a name character: no blank and no operator character
  have ends : ∀ c, isNameChar c = false → Context.endsWith c (String.ofList name) = false := by
    intro c notName
    simp only [endsWithOf, last, beq_eq_false_iff_ne, ne_eq, Option.some.injEq]
    rintro rfl
    rw [lastName] at notName
    cases notName
  have solid : ∀ c ∈ name.getLast?, isBlank c = false := by
    simpa [last] using nameSolid lastName
  have cutBlanks : trimRight (String.ofList (name ++ blanks)) = String.ofList name := by
    rw [trimRight, String.toList_ofList, dropTrailingBlanksAppend blank solid]
  have keepConditional : ∀ c, Context.markConditional (String.ofList name, c) = (String.ofList name, c) :=
    fun c => by rw [Context.markConditional, if_neg (by simp [ends '?' operatorsNotNames.1])]
  have keepSimple : ∀ c, Context.markSimple (String.ofList name, c) = (String.ofList name, c) :=
    fun c => by rw [Context.markSimple, if_neg (by simp [ends ':' operatorsNotNames.2.1])]
  have keepAppend : ∀ c v, Context.readAppend c (String.ofList name) v = (String.ofList name, v) :=
    fun c v => by rw [Context.readAppend, if_neg (by simp [ends '+' operatorsNotNames.2.2.1])]
  have cutLast : ∀ d, trimRight (String.ofList (String.ofList (name ++ blanks ++ [d])).toList.dropLast) =
      String.ofList name := by
    intro d
    rw [String.toList_ofList, List.dropLast_concat, cutBlanks]
  have cutColons : ∀ cs, (∀ c ∈ cs, c = ':') →
      trimRight (Context.dropTrailing ':' (String.ofList (name ++ blanks ++ cs))) = String.ofList name := by
    intro cs all
    have stop : ∀ c ∈ (name ++ blanks).getLast?, (c == ':') = false := by
      intro c mem
      rcases List.mem_append.mp (List.mem_of_getLast? mem) with inName | inBlanks
      · have named := nameChars c inName
        simp only [beq_eq_false_iff_ne, ne_eq]
        rintro rfl
        exact Bool.false_ne_true (operatorsNotNames.2.1.symm.trans named)
      · have isBlank' := blank c inBlanks
        simp only [beq_eq_false_iff_ne, ne_eq]
        rintro rfl
        cases isBlank'
    rw [Context.dropTrailing, String.toList_ofList, dropTrailingAppend (by simpa using all) stop,
      cutBlanks]
  have endsOp : ∀ c cs, cs ≠ [] →
      Context.endsWith c (String.ofList (name ++ blanks ++ cs)) = (cs.getLast? == some c) := by
    intro c cs some
    rw [endsWithOf, List.getLast?_append_of_ne_nil _ some]
  have trimmed := trimLeftSide named nameChars blank operator
  rw [setStages]
  simp only [assignOps, List.mem_cons, List.not_mem_nil, or_false] at operator
  rcases operator with rfl | rfl | rfl | rfl | rfl
  · -- `=`
    rw [trimmed, if_pos rfl, keepConditional, keepSimple]
    dsimp only
    rw [keepAppend]
    simp [Context.assigned, assignedValue]
  · -- `?=`
    rw [trimmed, if_neg (by simp), Context.markConditional, if_pos (by rw [endsOp _ _ (by simp)]; rfl), cutLast,
      keepSimple]
    dsimp only
    rw [keepAppend]
    simp [Context.assigned, assignedValue]
  · -- `:=`
    rw [trimmed, if_neg (by simp), Context.markConditional, if_neg (by rw [endsOp _ _ (by simp)]; decide),
      Context.markSimple, if_pos (by rw [endsOp _ _ (by simp)]; rfl), cutColons [':'] (by simp)]
    dsimp only
    rw [keepAppend]
    simp [Context.assigned, assignedValue]
  · -- `::=`
    rw [trimmed, if_neg (by simp), Context.markConditional, if_neg (by rw [endsOp _ _ (by simp)]; decide),
      Context.markSimple, if_pos (by rw [endsOp _ _ (by simp)]; rfl), cutColons [':', ':'] (by simp)]
    dsimp only
    rw [keepAppend]
    simp [Context.assigned, assignedValue]
  · -- `+=`
    rw [trimmed, if_neg (by simp), Context.markConditional, if_neg (by rw [endsOp _ _ (by simp)]; decide),
      Context.markSimple, if_neg (by rw [endsOp _ _ (by simp)]; decide)]
    dsimp only
    rw [Context.readAppend, if_pos (by rw [endsOp _ _ (by simp)]; rfl), cutLast]
    cases old : ctx.get? (String.ofList name) <;> simp [Context.assigned, assignedValue, old]

end LeftSide

namespace Parse

section Lines

/-! An assignment line, as the statement parser reads it. -/

theorem assignOpSplit {cs : List Char} (starts : startsWithAssignOp cs = true) :
    ∃ op ∈ assignOps, ∃ rest, cs = op ++ '=' :: rest := by
  unfold startsWithAssignOp at starts
  split at starts
  · exact ⟨[], by simp [assignOps], _, rfl⟩
  · exact ⟨['?'], by simp [assignOps], _, rfl⟩
  · exact ⟨[':'], by simp [assignOps], _, rfl⟩
  · exact ⟨[':', ':'], by simp [assignOps], _, rfl⟩
  · exact ⟨['+'], by simp [assignOps], _, rfl⟩
  · cases starts

theorem assignmentShape {line : String} (assignment : isAssignment line = true) :
    ∃ name blanks op rest, line.toList = name ++ blanks ++ op ++ '=' :: rest ∧ name ≠ [] ∧
      (∀ c ∈ name, isNameChar c = true) ∧ (∀ c ∈ blanks, isBlank c = true) ∧ op ∈ assignOps := by
  simp only [isAssignment, Bool.and_eq_true, Bool.not_eq_true', List.isEmpty_eq_false_iff] at assignment
  obtain ⟨named, starts⟩ := assignment
  obtain ⟨op, operator, rest, after⟩ := assignOpSplit starts
  refine ⟨line.toList.takeWhile isNameChar, (line.toList.dropWhile isNameChar).takeWhile isBlank, op,
    rest, ?_, named, fun c mem => List.mem_takeWhile_imp mem, fun c mem => List.mem_takeWhile_imp mem,
    operator⟩
  calc line.toList
      = line.toList.takeWhile isNameChar ++ line.toList.dropWhile isNameChar :=
        List.takeWhile_append_dropWhile.symm
    _ = line.toList.takeWhile isNameChar ++ ((line.toList.dropWhile isNameChar).takeWhile isBlank ++
          dropBlanks (line.toList.dropWhile isNameChar)) := by
        rw [dropBlanks, List.takeWhile_append_dropWhile (p := isBlank)]
    _ = _ := by rw [after]; simp

theorem splitAssignment {name blanks op rest : List Char} (nameChars : ∀ c ∈ name, isNameChar c = true)
    (blank : ∀ c ∈ blanks, isBlank c = true) (operator : op ∈ assignOps) :
    splitAtFirst '=' (String.ofList (name ++ blanks ++ op ++ '=' :: rest)) =
      (String.ofList (name ++ blanks ++ op), some (String.ofList rest)) := by
  have before : ∀ c ∈ name ++ blanks ++ op, (c != '=') = true := by
    intro c mem
    simp only [List.mem_append] at mem
    simp only [bne_iff_ne, ne_eq]
    rintro rfl
    rcases mem with (inName | inBlanks) | inOp
    · exact Bool.false_ne_true (operatorsNotNames.2.2.2.symm.trans (nameChars _ inName))
    · exact absurd (blank _ inBlanks) (by decide)
    · rcases opChars operator _ inOp with same | same | same <;> cases same
  rw [splitAtFirstCut, String.toList_ofList, if_pos (by simp), List.takeWhile_append_of_pos before,
    List.dropWhile_append_of_pos before]
  simp

theorem constructAssignment {raw : String} (assignment : construct raw = .assignment) :
    isAssignment (trim raw) = true := by
  unfold construct at assignment
  dsimp only at assignment
  split at assignment
  · cases assignment
  split at assignment
  · cases assignment
  · cases assignment
  by_cases found : isAssignment (trim raw) = true
  · exact found
  rw [if_neg found] at assignment
  split_ifs at assignment <;> (try split at assignment) <;> cases assignment

theorem assignmentReads (fuel : Nat) (raw : String) (r : Reader)
    (assignment : construct raw = .assignment) :
    ∃ name blanks op rest, (trim raw).toList = name ++ blanks ++ op ++ '=' :: rest ∧ name ≠ [] ∧
      (∀ c ∈ name, isNameChar c = true) ∧ (∀ c ∈ blanks, isBlank c = true) ∧ op ∈ assignOps ∧
      Gives ((statement (fuel + 1) raw).run r) (.ok (none,
        { r with context := r.context.assigned (String.ofList name) op (trim (String.ofList rest)) })) := by
  obtain ⟨name, blanks, op, rest, shape, named, nameChars, blank, operator⟩ :=
    assignmentShape (constructAssignment assignment)
  refine ⟨name, blanks, op, rest, shape, named, nameChars, blank, operator, ?_⟩
  have line : trim raw = String.ofList (name ++ blanks ++ op ++ '=' :: rest) := by
    rw [← shape, String.ofList_toList]
  rw [statementDispatch, assignment]
  simp only [Construct.read, line, splitAssignment nameChars blank operator, Option.getD_some]
  rw [StateT.run_bind, assignRun, setAssignment r.context _ named nameChars blank operator]
  exact givesPure _

end Lines

section ExportNames

/-! The name under which an `export` line stores its value: its left side, cut by the readings of
`Context.set`. Each reading cuts off trailing blanks and operator characters only. -/

def Kept (c : Char) : Prop := isBlank c = false ∧ c ≠ '?' ∧ c ≠ ':' ∧ c ≠ '+'

instance (c : Char) : Decidable (Kept c) := by unfold Kept; infer_instance

def NamedSide (left : String) : Prop := ∃ c ∈ left.toList, Kept c

variable {c : Char}

theorem memDropWhile {p : Char → Bool} {cs : List Char} (mem : c ∈ cs) (stop : p c = false) :
    c ∈ cs.dropWhile p := by
  rw [← List.takeWhile_append_dropWhile (p := p) (l := cs)] at mem
  rcases List.mem_append.mp mem with early | late
  · rw [List.mem_takeWhile_imp early] at stop
    cases stop
  · exact late

theorem memDropTrailing {p : Char → Bool} {cs : List Char} (mem : c ∈ cs) (stop : p c = false) :
    c ∈ (cs.reverse.dropWhile p).reverse :=
  List.mem_reverse.mpr (memDropWhile (List.mem_reverse.mpr mem) stop)

theorem memTrimRight {s : String} (mem : c ∈ s.toList) (kept : Kept c) : c ∈ (trimRight s).toList := by
  rw [trimRight, String.toList_ofList]
  exact memDropTrailing mem kept.1

theorem memTrim {s : String} (mem : c ∈ s.toList) (kept : Kept c) : c ∈ (trim s).toList := by
  rw [trim, String.toList_ofList]
  exact memDropTrailing (memDropWhile mem kept.1) kept.1

theorem memCutLast {s : String} {d : Char} (ends : Context.endsWith d s = true) (mem : c ∈ s.toList)
    (other : c ≠ d) : c ∈ (String.ofList s.toList.dropLast).toList := by
  rw [String.toList_ofList]
  have last : s.toList.getLast? = some d := by simpa [Context.endsWith] using ends
  have full : s.toList ≠ [] := fun empty => by simp [empty] at last
  rw [← List.dropLast_append_getLast full] at mem
  rcases List.mem_append.mp mem with early | late
  · exact early
  · rw [List.getLast?_eq_some_getLast full, Option.some.injEq] at last
    simp only [List.mem_singleton] at late
    exact absurd (late.trans last) other

theorem markConditionalKeeps (p : String × Context) (mem : c ∈ p.1.toList) (kept : Kept c) :
    c ∈ (Context.markConditional p).1.toList := by
  unfold Context.markConditional
  split
  · exact memTrimRight (memCutLast ‹_› mem kept.2.1) kept
  · exact mem

theorem markSimpleKeeps (p : String × Context) (mem : c ∈ p.1.toList) (kept : Kept c) :
    c ∈ (Context.markSimple p).1.toList := by
  unfold Context.markSimple
  split
  · refine memTrimRight ?_ kept
    rw [Context.dropTrailing, String.toList_ofList]
    exact memDropTrailing mem (by simpa using kept.2.2.1)
  · exact mem

theorem readAppendKeeps (ctx : Context) {name : String} (value : String) (mem : c ∈ name.toList)
    (kept : Kept c) : c ∈ (Context.readAppend ctx name value).1.toList := by
  unfold Context.readAppend
  split
  · exact memTrimRight (memCutLast ‹_› mem kept.2.2.2) kept
  · exact mem

theorem setNamed (ctx : Context) {left : String} (value : String) (named : NamedSide left) :
    (ctx.set left value).1 ≠ "" := by
  obtain ⟨c, mem, kept⟩ := named
  have inName : c ∈ (ctx.set left value).1.toList := by
    rw [setStages]
    dsimp only
    exact readAppendKeeps (Context.markSimple (Context.markConditional (trim left, ctx))).2 value
      (markSimpleKeeps _ (markConditionalKeeps (trim left, ctx) (memTrim mem kept) kept) kept) kept
  intro empty
  rw [empty] at inName
  simp at inName

theorem setStores (ctx : Context) (left value : String) :
    ((ctx.set left value).2.get? (ctx.set left value).1).isSome := by
  rw [setStages]
  simp [Context.get?, lookupPutValue]

theorem exportStores (line : String) (loc : Option Location) (r : Reader) :
    Runs (exportDirective .exportVar line loc) r (fun s r' _ => ∃ name value,
      s = .exportVar name value ∧ (r'.context.get? name).isSome ∧
      (NamedSide (splitAtFirst '=' (Directive.exportVar.argument line)).1 → name ≠ "")) ⊤ := by
  unfold exportDirective
  dsimp only
  split
  · exact .ofFail _ _ trivial
  rw [if_neg (by decide)]
  split
  · rename_i left value cut
    split
    · exact .ofFail _ _ trivial
    · refine .bind (assignSets _ _ r) fun name r' _ ⟨named, set⟩ =>
        .ofPure ⟨name, _, rfl, ?_, fun side => ?_⟩
      · rw [named, set]
        dsimp only
        exact setStores r.context left (trim value)
      · rw [cut] at side
        rw [named]
        exact setNamed r.context (trim value) side
  · exact .ofFail _ _ trivial

theorem exportLineStores (fuel : Nat) (raw : String) (r : Reader)
    (exported : construct raw = .exportLine .exportVar) :
    Runs (statement (fuel + 1) raw) r (fun s r' _ => ∃ name value,
      s = some (.exportVar name value) ∧ (r'.context.get? name).isSome ∧
      (NamedSide (splitAtFirst '=' (Directive.exportVar.argument (trim raw))).1 → name ≠ "")) ⊤ := by
  rw [statementDispatch, exported]
  refine .placeThen (.bind (exportStores (trim raw) r.stream.loc r) fun s r' _ stored => .ofPure ?_)
  obtain ⟨name, value, rfl, held, named⟩ := stored
  exact ⟨name, value, rfl, held, named⟩

end ExportNames

theorem assignmentSetsItsName (fuel : Nat) (raw : String) (r : Reader) :
    (construct raw = .assignment → ∃ name blanks op rest r',
      (trim raw).toList = name ++ blanks ++ op ++ '=' :: rest ∧
      splitAtFirst '=' (trim raw) = (String.ofList (name ++ blanks ++ op), some (String.ofList rest)) ∧
      name ≠ [] ∧ (∀ c ∈ name, isNameChar c = true) ∧ (∀ c ∈ blanks, isBlank c = true) ∧
      op ∈ assignOps ∧ Gives ((statement (fuel + 1) raw).run r) (.ok (none, r')) ∧
      r'.stream = r.stream ∧ r'.context.rootDir = r.context.rootDir ∧
      r'.context.get? (String.ofList name) =
        some (assignedValue op (r.context.get? (String.ofList name)) (trim (String.ofList rest))) ∧
      (∀ k, k ≠ String.ofList name → r'.context.get? k = r.context.get? k) ∧
      (∀ k, k ∈ r'.context.modifiable ↔ k ∈ r.context.modifiable ∨ op = ['?'] ∧ k = String.ofList name) ∧
      (∀ k, k ∈ r'.context.simpleExpanded ↔
        k ∈ r.context.simpleExpanded ∨ (op = [':'] ∨ op = [':', ':']) ∧ k = String.ofList name)) ∧
    (construct raw = .exportLine .exportVar → ∃ res, Gives ((statement (fuel + 1) raw).run r) res ∧
      ∀ s r', res = .ok (s, r') → ∃ name value, s = some (.exportVar name value) ∧
        (r'.context.get? name).isSome ∧
        (NamedSide (splitAtFirst '=' (Directive.exportVar.argument (trim raw))).1 → name ≠ "")) := by
  constructor
  · intro assignment
    obtain ⟨name, blanks, op, rest, shape, named, nameChars, blank, operator, gives⟩ :=
      assignmentReads fuel raw r assignment
    have cut : splitAtFirst '=' (trim raw) =
        (String.ofList (name ++ blanks ++ op), some (String.ofList rest)) := by
      have line : trim raw = String.ofList (name ++ blanks ++ op ++ '=' :: rest) := by
        rw [← shape, String.ofList_toList]
      rw [line]
      exact splitAssignment nameChars blank operator
    refine ⟨name, blanks, op, rest, _, shape, cut, named, nameChars, blank, operator, gives, rfl, rfl,
      ?_, fun k other => ?_, fun k => Context.assignedModifiable _ _ _ _ k,
      fun k => Context.assignedSimple _ _ _ _ k⟩
    · dsimp only
      rw [Context.assignedGet, if_pos rfl]
    · dsimp only
      rw [Context.assignedGet, if_neg other]
  · intro exported
    obtain ⟨res, _, logs, holds, -⟩ := exportLineStores fuel raw r exported
    exact ⟨res, logs.gives, fun s r' ok => holds (s, r') ok⟩

def readerWithA : Reader :=
  { afterRuleHeader with context := ⟨"/w", [("A", "x")], [], []⟩ }

set_option maxRecDepth 8192 in
theorem appendAndExportRead :
    construct "A += 1" = .assignment ∧ construct "export B=2" = .exportLine .exportVar ∧
      NamedSide (splitAtFirst '=' (Directive.exportVar.argument (trim "export B=2"))).1 ∧
      (∃ name blanks op rest r', (trim "A += 1").toList = name ++ blanks ++ op ++ '=' :: rest ∧
        Gives ((statement 1 "A += 1").run readerWithA) (.ok (none, r')) ∧
        r'.context.get? (String.ofList name) =
          some (assignedValue op (readerWithA.context.get? (String.ofList name)) (trim (String.ofList rest)))) ∧
      ∃ res, Gives ((statement 1 "export B=2").run readerWithA) res ∧
        ∀ s r', res = .ok (s, r') → ∃ name value, s = some (.exportVar name value) ∧ name ≠ "" := by
  have assigning : construct "A += 1" = .assignment := by decide
  have exporting : construct "export B=2" = .exportLine .exportVar := by decide
  have named : NamedSide (splitAtFirst '=' (Directive.exportVar.argument (trim "export B=2"))).1 :=
    ⟨'B', by decide, by decide⟩
  obtain ⟨name, blanks, op, rest, r', shape, -, -, -, -, -, gives, -, -, value, -⟩ :=
    (assignmentSetsItsName 0 "A += 1" readerWithA).1 assigning
  obtain ⟨res, exportGives, stored⟩ := (assignmentSetsItsName 0 "export B=2" readerWithA).2 exporting
  refine ⟨assigning, exporting, named, ⟨name, blanks, op, rest, r', shape, gives, value⟩, res,
    exportGives, fun s r'' ok => ?_⟩
  obtain ⟨name', value', carried, -, nonempty⟩ := stored s r'' ok
  exact ⟨name', value', carried, nonempty named⟩

set_option maxRecDepth 8192 in
theorem operatorExportNamesNothing :
    (match (Makefile.parseText ⟨"/w", ["/w"], []⟩ "export :=1\n" "Makefile" none).run.1 with
      | .ok m => m.statements == [.exportVar "" "1"] && m.context.get? "" == some "1"
      | .error _ => false) = true ∧
      ¬NamedSide (splitAtFirst '=' (Directive.exportVar.argument (trim "export :=1"))).1 := by
  refine ⟨by decide +kernel, ?_⟩
  rintro ⟨c, mem, kept⟩
  have side : (splitAtFirst '=' (Directive.exportVar.argument (trim "export :=1"))).1.toList = [':'] := by
    decide
  rw [side, List.mem_singleton] at mem
  exact kept.2.2.1 mem

end Parse

end Maketree
