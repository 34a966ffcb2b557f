import Mathlib
import Maketree.Makefile
import Maketree.Proofs.FlatReading
/-! The construct a logical line is read as, which alone decides the parser's branch, and how the
stream's include test and the parser's tests on delimiters agree. -/
namespace Maketree.Parse

open Text

inductive Construct where
  | comment
  | exportLine (d : Directive)
  | assignment
  | include
  | conditional
  | stray (keyword : String)
  | rule
  | command
  deriving DecidableEq, Repr

def construct (raw : String) : Construct :=
  let line := trim raw
  if startsWithHash line then .comment
  else match directive? line with
    | some .exportVar => .exportLine .exportVar
    | some .unexportVar => .exportLine .unexportVar
    | d =>
      if isAssignment line then .assignment
      else if isInclude line then .include
      else match d with
        | some .ifeq | some .ifneq => .conditional
        | some .orElse => .stray "else"
        | some .endif => .stray "endif"
        | _ => if isRuleHeader line then .rule else .command

def Construct.read (fuel : Nat) (line : String) : Construct → ReadM (Option Statement)
  | .comment => pure (some (.comment (commentText line)))
  | .exportLine d => do return some (← exportDirective d line (← place))
  | .assignment => do
    let (name, value) := splitAtFirst '=' line
    let _ ← assign name (trim (value.getD ""))
    return none
  | .include => do return some (← includeDirective line)
  | .conditional => do
    let (guard, steps, tail) ← arm fuel line
    return some (.conditional guard steps tail)
  | .stray keyword => do fail (.unmatchedDirective keyword) (← place)
  | .rule => do return some (← target fuel line)
  | .command => do
    note (.unhandled (← place) line)
    return some (.command line)

theorem statementDispatch (fuel : Nat) (raw : String) :
    statement (fuel + 1) raw = (construct raw).read fuel (trim raw) := by
  rw [statement]
  unfold construct
  dsimp only
  split
  · rfl
  -- the directive of the line is tested twice, around the assignment and include tests; after a
  -- stray directive the parser's text goes on past the failure, which never returns
  generalize directive? (trim raw) = d
  rcases d with _ | d
  · dsimp only [Construct.read]
    split_ifs <;> rfl
  · cases d <;> dsimp only [Construct.read] <;> (try split_ifs) <;> dsimp only <;>
      simp only [fail, Flat.throwBind]

theorem directiveFirst {line : String} {d : Directive} (found : directive? line = some d) :
    line.toList.head? = d.keyword.toList.head? := by
  have leads := List.find?_some found
  simp only [Directive.leads, Bool.and_eq_true] at leads
  obtain ⟨t, whole⟩ := List.isPrefixOf_iff_prefix.mp leads.1
  rw [← whole]
  cases d <;> rfl

theorem directiveNotComment {line : String} {d : Directive} (found : directive? line = some d) :
    startsWithHash line = false := by
  simp only [startsWithHash, directiveFirst found]
  cases d <;> rfl

theorem constructInclude (raw : String) : construct raw = .include ↔ isInclude raw = true := by
  constructor
  · intro included
    unfold construct at included
    dsimp only at included
    split at included
    · cases included
    split at included
    · cases included
    · cases included
    by_cases assignment : isAssignment (trim raw) = true
    · simp [assignment] at included
    by_cases found : isInclude (trim raw) = true
    · exact (includeTrim raw).symm.trans found
    rw [if_neg assignment, if_neg found] at included
    split at included <;> (try split at included) <;> cases included
  · intro included
    simp [construct, includeNotComment included, includeNoDirective included,
      includeNotAssignment included, included]

theorem constructStray (raw : String) :
    (∃ keyword, construct raw = .stray keyword) ↔
      (directive? (trim raw) = some .orElse ∨ directive? (trim raw) = some .endif) ∧
        isAssignment (trim raw) = false := by
  constructor
  · rintro ⟨keyword, stray⟩
    unfold construct at stray
    dsimp only at stray
    split at stray
    · cases stray
    split at stray
    · cases stray
    · cases stray
    by_cases assignment : isAssignment (trim raw) = true
    · simp [assignment] at stray
    by_cases included : isInclude (trim raw) = true
    · simp [assignment, included] at stray
    rw [if_neg assignment, if_neg included] at stray
    -- only the two delimiters are left to give a stray construct
    split at stray
    · cases stray
    · cases stray
    · rename_i found
      exact ⟨.inl found, by simpa using assignment⟩
    · rename_i found
      exact ⟨.inr found, by simpa using assignment⟩
    · split at stray <;> cases stray
  · rintro ⟨found, assignment⟩
    have hash : startsWithHash (trim raw) = false := by
      rcases found with found | found <;> exact directiveNotComment found
    have included : isInclude (trim raw) = false := by
      rcases found with found | found <;> exact directiveNotInclude (by simpa using found)
    rcases found with found | found
    · exact ⟨"else", by simp [construct, hash, found, assignment, included]⟩
    · exact ⟨"endif", by simp [construct, hash, found, assignment, included]⟩

theorem constructRule (raw : String) : construct raw = .rule ↔ headsRule raw = true := by
  constructor
  · intro rule
    unfold construct at rule
    dsimp only at rule
    split at rule
    · cases rule
    rename_i hash
    split at rule
    · cases rule
    · cases rule
    rename_i d notExport notUnexport
    by_cases assignment : isAssignment (trim raw) = true
    · simp [assignment] at rule
    by_cases included : isInclude (trim raw) = true
    · simp [assignment, included] at rule
    rw [if_neg assignment, if_neg included] at rule
    split at rule
    · cases rule
    · cases rule
    · cases rule
    · cases rule
    rename_i notIfeq notIfneq notElse notEndif
    split_ifs at rule with header
    have none : directive? (trim raw) = none := by
      cases found : directive? (trim raw) with
      | none => rfl
      | some d => cases d <;> simp_all
    simp [headsRule, hash, assignment, included, none, header]
  · intro rule
    simp only [headsRule, Bool.and_eq_true, Bool.not_eq_true', beq_iff_eq] at rule
    obtain ⟨⟨⟨⟨hash, assignment⟩, included⟩, none⟩, header⟩ := rule
    simp [construct, hash, assignment, included, none, header]

theorem includeNotEmpty {line : String} (included : isInclude line = true) : line.isEmpty = false := by
  cases empty : line.isEmpty with
  | false => rfl
  | true => rw [String.isEmpty_iff.mp empty] at included; cases included

theorem elseArmIncludes (fuel : Nat) {rest : String} (start : Option Location)
    (included : isInclude rest = true) :
    elseArm (fuel + 2) rest start = (do
      let s ← includeDirective (trim rest)
      let more ← elseBody (fuel + 1) start
      pure (s :: more)) := by
  have hash : startsWithHash rest = false := by
    cases hashed : startsWithHash rest with
    | false => rfl
    | true => simp [commentNotInclude hashed] at included
  rw [elseArm]
  simp [includeNotEmpty included, hash, statementDispatch, (constructInclude rest).2 included,
    Construct.read]

theorem elseIncludeWaits (fuel : Nat) (start : Option Location) {r : Reader}
    (more : r.stream.eof = false) (orElse : directive? (trim r.stream.next) = some .orElse)
    (included : isInclude (Directive.orElse.argument (trim r.stream.next)) = true) :
    (armBody (fuel + 3) start).run r = (do
      let _ ← readLine (some true)
      let s ← includeDirective (Directive.orElse.argument (trim r.stream.next))
      let more ← elseBody (fuel + 1) start
      pure (([] : List Statement), Tail.otherwise (s :: more))).run r := by
  have plain : directive? (Directive.orElse.argument (trim r.stream.next)) = none := by
    simpa [argumentTrimmed] using includeNoDirective included
  rw [armBody]
  simp [atEnd, peek, LineStream.peek, more, orElse, included, plain, elseArmIncludes fuel start included,
    argumentTrimmed]

theorem includeTestsAgree (raw : String) :
    (∀ fuel, statement (fuel + 1) raw = (construct raw).read fuel (trim raw)) ∧
    (construct raw = .include ↔ isInclude raw = true) ∧
    (isInclude raw = true → ∀ fuel start,
      elseArm (fuel + 2) raw start = (do
        let s ← includeDirective (trim raw)
        let more ← elseBody (fuel + 1) start
        pure (s :: more))) ∧
    (∀ fuel start (r : Reader), r.stream.eof = false → trim r.stream.next = raw →
      directive? raw = some .orElse → isInclude (Directive.orElse.argument raw) = true →
      (armBody (fuel + 3) start).run r = (do
        let _ ← readLine (some true)
        let s ← includeDirective (Directive.orElse.argument raw)
        let more ← elseBody (fuel + 1) start
        pure (([] : List Statement), Tail.otherwise (s :: more))).run r) := by
  refine ⟨fun fuel => statementDispatch fuel raw, constructInclude raw,
    fun included fuel start => elseArmIncludes fuel start included, ?_⟩
  intro fuel start r more line orElse included
  subst line
  exact elseIncludeWaits fuel start more orElse included

def atElseInclude : Reader :=
  ⟨{ LineStream.empty ⟨"/w", ["/w"], []⟩ "/w" with next := "else include x" }, Context.empty "/w"⟩

theorem elseIncludeLineWaits :
    isInclude "include x" = true ∧
      elseArm 2 "include x" none = (do
        let s ← includeDirective (trim "include x")
        let more ← elseBody 1 none
        pure (s :: more)) ∧
      atElseInclude.stream.eof = false ∧ trim atElseInclude.stream.next = "else include x" ∧
      directive? "else include x" = some .orElse ∧
      isInclude (Directive.orElse.argument "else include x") = true ∧
      (armBody 3 none).run atElseInclude = (do
        let _ ← readLine (some true)
        let s ← includeDirective (Directive.orElse.argument "else include x")
        let more ← elseBody 1 none
        pure (([] : List Statement), Tail.otherwise (s :: more))).run atElseInclude := by
  have included : isInclude "include x" = true := by decide
  have trimmed : trim atElseInclude.stream.next = "else include x" := by decide
  have orElse : directive? "else include x" = some .orElse := by decide
  have rest : isInclude (Directive.orElse.argument "else include x") = true := by decide
  exact ⟨included, (includeTestsAgree "include x").2.2.1 included 0 none, rfl, trimmed, orElse, rest,
    (includeTestsAgree "else include x").2.2.2 0 none atElseInclude rfl trimmed orElse rest⟩

theorem strayDelimiterUnlessAssigned (raw : String) :
    ((∃ keyword, construct raw = .stray keyword) ↔
      (directive? (trim raw) = some .orElse ∨ directive? (trim raw) = some .endif) ∧
        isAssignment (trim raw) = false) ∧
    ∀ fuel keyword, construct raw = .stray keyword →
      statement (fuel + 1) raw = (do fail (.unmatchedDirective keyword) (← place)) := by
  refine ⟨constructStray raw, fun fuel keyword stray => ?_⟩
  rw [statementDispatch, stray]
  rfl

theorem strayEndifRejected :
    construct "endif" = .stray "endif" ∧
      statement 1 "endif" = (do fail (.unmatchedDirective "endif") (← place)) := by
  have stray : construct "endif" = .stray "endif" := by decide
  exact ⟨stray, (strayDelimiterUnlessAssigned "endif").2 0 "endif" stray⟩

theorem endifAssignmentEndsBlock :
    directive? (trim "endif = 1") = some .endif ∧ construct "endif = 1" = .assignment ∧
    (match (Makefile.parseText ⟨"/w", ["/w"], []⟩ "ifeq (a,b)\nendif = 1\nendif = 1\n" "Makefile"
        none).run.1 with
      | .ok m => m.dump
      | .error h => h.message) = "AST:\n\tContext:\n\t\tendif\t : 1\n\tNodes:\n\t\tIfEq (a,b)\n" := by
  decide +kernel

end Maketree.Parse
