import Mathlib
import Maketree.Makefile
import Maketree.Proofs.LineKind
/-! Dumping a statement at an indent puts the indent in front of every line of its plain dump. -/
namespace Maketree

namespace Text

def indentFrom (pre : List Char) : Bool → List Char → List Char
  | _, [] => []
  | start, c :: cs => (if start then pre else []) ++ c :: indentFrom pre (c == '\n') cs

def indentLines (pre text : String) : String := String.ofList (indentFrom pre.toList true text.toList)

def startsAfter (start : Bool) (cs : List Char) : Bool := (cs.getLast?.map (· == '\n')).getD start

def oneLine (s : String) : Bool := !s.toList.contains '\n'

theorem oneLineIff (s : String) : oneLine s = true ↔ '\n' ∉ s.toList := by
  simp [oneLine]

@[simp] theorem oneLineAppend (a b : String) : oneLine (a ++ b) = (oneLine a && oneLine b) := by
  simp [oneLine, String.toList_append]

theorem indentFromAppend (pre : List Char) : ∀ (start : Bool) (xs ys : List Char),
    indentFrom pre start (xs ++ ys) = indentFrom pre start xs ++ indentFrom pre (startsAfter start xs) ys
  | _, [], _ => rfl
  | start, c :: cs, ys => by
    rw [List.cons_append, indentFrom, indentFrom, indentFromAppend pre _ cs ys, List.append_assoc,
      List.cons_append]
    -- after `c` a line starts when `c` is a line feed, unless more characters follow
    cases cs with
    | nil => simp [startsAfter]
    | cons d ds =>
      simp only [startsAfter, List.getLast?_cons_cons, List.getLast?_eq_some_getLast (List.cons_ne_nil d ds),
        Option.map_some, Option.getD_some]

theorem indentFromPlain (pre : List Char) : ∀ {cs : List Char}, '\n' ∉ cs → indentFrom pre false cs = cs
  | [], _ => rfl
  | c :: cs, plain => by
    have notFeed : c ≠ '\n' := fun same => plain (same ▸ List.mem_cons_self ..)
    rw [indentFrom, if_neg Bool.false_ne_true, List.nil_append,
      show (c == '\n') = false by simpa using notFeed,
      indentFromPlain pre fun mem => plain (List.mem_cons_of_mem _ mem)]

theorem indentFromStart (pre : List Char) {cs : List Char} (plain : '\n' ∉ cs) :
    indentFrom pre true cs = (if cs = [] then [] else pre ++ cs) ∧
      startsAfter true cs = decide (cs = []) := by
  cases cs with
  | nil => simp [indentFrom, startsAfter]
  | cons c rest =>
    have notFeed : c ≠ '\n' := fun same => plain (same ▸ List.mem_cons_self ..)
    have inside : '\n' ∉ rest := fun mem => plain (List.mem_cons_of_mem _ mem)
    refine ⟨?_, ?_⟩
    · rw [indentFrom, if_pos rfl, show (c == '\n') = false by simpa using notFeed,
        indentFromPlain pre inside]
      simp
    · cases found : (c :: rest).getLast? with
      | none => simp at found
      | some x =>
        have isMember := List.mem_of_getLast? found
        have other : x ≠ '\n' := fun same => plain (same ▸ isMember)
        simp [startsAfter, found, other]

theorem indentFromLine (pre : List Char) {line : List Char} (plain : '\n' ∉ line) :
    indentFrom pre true (line ++ ['\n']) = pre ++ line ++ ['\n'] := by
  obtain ⟨body, after⟩ := indentFromStart pre plain
  rw [indentFromAppend, body, after]
  by_cases empty : line = []
  · subst empty
    simp [indentFrom]
  · simp [empty, indentFrom]

theorem indentFromCompose (p q : List Char) (plain : '\n' ∉ q) : ∀ (start : Bool) (cs : List Char),
    indentFrom (p ++ q) start cs = indentFrom p start (indentFrom q start cs)
  | _, [] => rfl
  | start, c :: cs => by
    rw [indentFrom, indentFrom, indentFromCompose p q plain _ cs]
    cases start with
    | false => simp [indentFrom]
    | true =>
      obtain ⟨body, after⟩ := indentFromStart p plain
      rw [if_pos rfl, if_pos rfl, indentFromAppend, body, after]
      by_cases empty : q = []
      · subst empty
        simp [indentFrom]
      · simp [empty, indentFrom]

def EndsLines (t : String) : Prop := startsAfter true t.toList = true

theorem EndsLines.empty : EndsLines "" := rfl

theorem EndsLines.line (s : String) : EndsLines (s ++ "\n") := by
  simp [EndsLines, startsAfter, String.toList_append]

theorem EndsLines.append {a b : String} (first : EndsLines a) (second : EndsLines b) :
    EndsLines (a ++ b) := by
  unfold EndsLines startsAfter at *
  rw [String.toList_append, List.getLast?_append]
  cases last : b.toList.getLast? with
  | none => simpa using first
  | some x => simpa [last] using second

theorem EndsLines.join : ∀ {ts : List String}, (∀ t ∈ ts, EndsLines t) → EndsLines (String.join ts)
  | [], _ => EndsLines.empty
  | t :: ts, ends => by
    rw [String.join_cons]
    exact (ends t (List.mem_cons_self ..)).append (EndsLines.join fun u mem => ends u (List.mem_cons_of_mem _ mem))

@[simp] theorem indentLinesEmpty (pre : String) : indentLines pre "" = "" := rfl

theorem indentLinesAppend (pre : String) {a : String} (b : String) (ends : EndsLines a) :
    indentLines pre (a ++ b) = indentLines pre a ++ indentLines pre b := by
  unfold EndsLines at ends
  rw [indentLines, String.toList_append, indentFromAppend, ends, String.ofList_append]
  rfl

theorem indentLinesLine (pre : String) {s : String} (plain : oneLine s = true) :
    indentLines pre (s ++ "\n") = pre ++ s ++ "\n" := by
  rw [indentLines, String.toList_append, show "\n".toList = ['\n'] from rfl,
    indentFromLine _ ((oneLineIff s).mp plain), ← String.toList_inj]
  simp [String.toList_append]

theorem indentLinesCompose (p q t : String) (plain : oneLine q = true) :
    indentLines (p ++ q) t = indentLines p (indentLines q t) := by
  rw [indentLines, indentLines, indentLines, String.toList_append,
    indentFromCompose _ _ ((oneLineIff q).mp plain), String.toList_ofList]

theorem indentLinesJoin (pre : String) : ∀ {ts : List String}, (∀ t ∈ ts, EndsLines t) →
    indentLines pre (String.join ts) = String.join (ts.map (indentLines pre))
  | [], _ => rfl
  | t :: ts, ends => by
    rw [String.join_cons, indentLinesAppend pre _ (ends t (List.mem_cons_self ..)),
      indentLinesJoin pre fun u mem => ends u (List.mem_cons_of_mem _ mem), List.map_cons, String.join_cons]

theorem hexDigitsOneLine : ∀ (width n : Nat), '\n' ∉ hexDigits width n
  | 0, _ => by simp [hexDigits]
  | width + 1, n => by
    have digit : ∀ m < 16, hexDigit m ≠ '\n' := by decide
    rw [hexDigits, List.mem_append, List.mem_singleton, not_or]
    exact ⟨hexDigitsOneLine width (n / 16), (digit (n % 16) (Nat.mod_lt _ (by decide))).symm⟩

theorem quoteOneLine (s : String) : oneLine (quote s) = true := by
  have quoteChar : quoteFor s.toList ≠ '\n' := by
    unfold quoteFor
    split <;> decide
  have escaped : ∀ c, '\n' ∉ escapeChar (quoteFor s.toList) c := by
    intro c
    unfold escapeChar
    split_ifs <;> simp_all [hexDigitsOneLine] <;> grind
  rw [oneLineIff, quote, String.toList_ofList]
  simp only [List.cons_append, List.mem_cons, List.mem_append, List.mem_flatMap, not_or, not_exists,
    not_and]
  exact ⟨quoteChar.symm, fun c _ => escaped c, quoteChar.symm, List.not_mem_nil⟩

theorem splitAtAndWithin (xs : List Char) : ∀ cs ∈ splitAtAnd xs, ∀ c ∈ cs, c ∈ xs := by
  fun_induction splitAtAnd xs with
  | case1 rest ih =>
    intro cs mem c inside
    rcases List.mem_cons.mp mem with rfl | later
    · simp at inside
    · exact List.mem_cons_of_mem _ (List.mem_cons_of_mem _ (ih cs later c inside))
  | case2 x rest notAnd none ih =>
    intro cs mem c inside
    simp_all
  | case3 x rest notAnd w ws first ih =>
    intro cs mem c inside
    rcases List.mem_cons.mp mem with rfl | later
    · rcases List.mem_cons.mp inside with rfl | inW
      · exact List.mem_cons_self ..
      · exact List.mem_cons_of_mem _ (ih w (by simp [first]) c inW)
    · exact List.mem_cons_of_mem _ (ih cs (by simp [first, later]) c inside)
  | case4 => simp

theorem commandPiecesOneLine {text : String} (plain : oneLine text = true) :
    ∀ c ∈ commandPieces text, oneLine c = true := by
  intro c mem
  obtain ⟨cs, piece, rfl⟩ := List.mem_map.mp mem
  rw [oneLineIff, String.toList_ofList]
  intro feed
  have inPiece : '\n' ∈ cs :=
    (List.dropWhile_suffix isBlank).subset ((dropTrailingPrefix (dropBlanks cs)).subset feed)
  exact (oneLineIff text).mp plain (splitAtAndWithin _ cs piece _ inPiece)

end Text

open Text

mutual

def Statement.oneLine : Statement → Bool
  | .comment text | .includeFile text | .unexportVar text | .command text => Text.oneLine text
  | .exportVar name value => Text.oneLine name && Text.oneLine value
  | .cargo _ directory _ => Text.oneLine (directory.getD "")
  | .target name deps definedIn _ steps =>
    Text.oneLine name && deps.all Text.oneLine && Text.oneLine definedIn && Statement.allOneLine steps
  | .conditional guard steps tail =>
    Text.oneLine guard.condition && Statement.allOneLine steps && Tail.oneLine tail

def Statement.allOneLine : List Statement → Bool
  | [] => true
  | s :: rest => s.oneLine && Statement.allOneLine rest

def Tail.oneLine : Tail → Bool
  | .endif => true
  | .elseIf guard steps tail =>
    Text.oneLine guard.condition && Statement.allOneLine steps && Tail.oneLine tail
  | .otherwise steps => Statement.allOneLine steps

end

section Dumps

open Text

variable (pre : String)

theorem oneLineIntercalate {sep : String} (plainSep : Text.oneLine sep = true) :
    ∀ {ds : List String}, ds.all Text.oneLine = true → Text.oneLine (sep.intercalate ds) = true
  | [], _ => rfl
  | [d], plain => by simpa using plain
  | d :: e :: rest, plain => by
    simp only [List.all_cons, Bool.and_eq_true] at plain
    rw [String.intercalate_cons_cons, oneLineAppend, oneLineAppend, plainSep, plain.1,
      oneLineIntercalate plainSep (by simp [plain.2.1, plain.2.2])]
    rfl

theorem dumpLineEnds (s : String) : EndsLines (dumpLine s) := EndsLines.line s

theorem indentDumpLine {s : String} (plain : Text.oneLine s = true) :
    indentLines pre (dumpLine s) = dumpLine (pre ++ s) := by
  rw [dumpLine, dumpLine, indentLinesLine pre plain]

theorem indentDumpLines (line : String → String) :
    ∀ {l : List String}, (∀ c ∈ l, Text.oneLine (line c) = true) →
      indentLines pre (String.join (l.map fun c => dumpLine (line c))) =
        String.join (l.map fun c => dumpLine (pre ++ line c))
  | [], _ => rfl
  | c :: l, plain => by
    rw [List.map_cons, String.join_cons, indentLinesAppend _ _ (dumpLineEnds _),
      indentDumpLine pre (plain c (List.mem_cons_self ..)),
      indentDumpLines line fun d mem => plain d (List.mem_cons_of_mem _ mem), List.map_cons, String.join_cons]

theorem dumpLinesEnds (line : String → String) (l : List String) :
    EndsLines (String.join (l.map fun c => dumpLine (line c))) :=
  EndsLines.join fun _ mem => by
    obtain ⟨c, _, rfl⟩ := List.mem_map.mp mem
    exact dumpLineEnds _

theorem dumpCommandEnds (text : String) : EndsLines (dumpCommand pre text) := by
  unfold dumpCommand
  split
  · exact ((dumpLineEnds _).append (dumpLinesEnds _ _)).append (dumpLineEnds _)
  · exact dumpLineEnds _

theorem dumpCommandIndented {text : String} (plain : Text.oneLine text = true) :
    dumpCommand pre text = indentLines pre (dumpCommand "" text) := by
  have pieces := commandPiecesOneLine plain
  unfold dumpCommand
  generalize commandPieces text = ps at pieces ⊢
  rcases ps with _ | ⟨first, _ | ⟨second, rest⟩⟩
  · rw [indentDumpLine pre (by simpa using plain), String.empty_append]
  · rw [indentDumpLine pre (by simpa using plain), String.empty_append]
  · dsimp only
    have later : ∀ c ∈ second :: rest, Text.oneLine c = true := fun c mem => pieces c (List.mem_cons_of_mem _ mem)
    have middle : ∀ c ∈ (second :: rest).dropLast, Text.oneLine ("" ++ "    " ++ c ++ " && \\") = true :=
      fun c mem => by simp +decide [later c (List.dropLast_subset _ mem)]
    have last : Text.oneLine ((second :: rest).getLast?.getD "") = true := by
      cases found : (second :: rest).getLast? with
      | none => rfl
      | some c => exact later c (List.mem_of_getLast? found)
    rw [indentLinesAppend _ _ ((dumpLineEnds _).append (dumpLinesEnds _ _)),
      indentLinesAppend _ _ (dumpLineEnds _), indentDumpLine pre (by simp +decide [pieces first (by simp)]),
      indentDumpLines pre _ middle, indentDumpLine pre (by simp +decide [last])]
    simp only [String.empty_append, String.append_assoc]

theorem dumpGuardEnds (p : String) (g : Guard) : EndsLines (dumpGuard pre p g) := dumpLineEnds _

theorem indentDumpGuard (p : String) (g : Guard) (plainP : Text.oneLine p = true)
    (plain : Text.oneLine g.condition = true) :
    indentLines pre (dumpGuard "" p g) = dumpGuard pre p g := by
  have word : Text.oneLine (if g.expected then "IfEq" else "IfNotEq") = true := by split <;> decide
  rw [dumpGuard, dumpGuard, indentDumpLine pre (by simp +decide [plainP, word, plain])]
  simp only [String.empty_append, String.append_assoc]

end Dumps

section Laws

open Text

mutual

theorem Statement.dumpEnds (pre : String) : ∀ s : Statement, EndsLines (s.dump pre)
  | .comment _ | .includeFile _ | .exportVar _ _ | .unexportVar _ => dumpLineEnds _
  | .command text => dumpCommandEnds pre text
  | .cargo _ _ _ => (dumpLineEnds _).append (dumpLineEnds _)
  | .target _ _ _ _ steps => ((dumpLineEnds _).append (dumpLineEnds _)).append (Statement.dumpAllEnds _ steps)
  | .conditional _ steps tail =>
    ((dumpLineEnds _).append (Statement.dumpAllEnds _ steps)).append (Tail.dumpEnds pre tail)

theorem Statement.dumpAllEnds (pre : String) : ∀ ss : List Statement, EndsLines (Statement.dumpAll pre ss)
  | [] => EndsLines.empty
  | s :: rest => (Statement.dumpEnds pre s).append (Statement.dumpAllEnds pre rest)

theorem Tail.dumpEnds (pre : String) : ∀ t : Tail, EndsLines (Tail.dump pre t)
  | .endif => EndsLines.empty
  | .elseIf _ steps tail =>
    ((dumpLineEnds _).append (Statement.dumpAllEnds _ steps)).append (Tail.dumpEnds pre tail)
  | .otherwise steps => (dumpLineEnds _).append (Statement.dumpAllEnds _ steps)

end

mutual

theorem Statement.dumpIndented : ∀ (s : Statement), s.oneLine = true → ∀ pre : String,
    s.dump pre = indentLines pre (s.dump "")
  | .comment text, plain, pre => by
    rw [Statement.dump, Statement.dump, indentDumpLine pre (by simpa +decide [Statement.oneLine] using plain)]
    simp only [String.empty_append, String.append_assoc]
  | .includeFile path, plain, pre => by
    rw [Statement.dump, Statement.dump, indentDumpLine pre (by simpa +decide [Statement.oneLine] using plain)]
    simp only [String.empty_append, String.append_assoc]
  | .exportVar name value, plain, pre => by
    rw [Statement.dump, Statement.dump, indentDumpLine pre (by simpa +decide [Statement.oneLine] using plain)]
    simp only [String.empty_append, String.append_assoc]
  | .unexportVar name, plain, pre => by
    rw [Statement.dump, Statement.dump, indentDumpLine pre (by simpa +decide [Statement.oneLine] using plain)]
    simp only [String.empty_append, String.append_assoc]
  | .command text, plain, pre => by
    rw [Statement.dump, Statement.dump]
    exact dumpCommandIndented pre (by simpa [Statement.oneLine] using plain)
  | .cargo sub directory text, plain, pre => by
    have named : Text.oneLine sub.name = true := by cases sub <;> decide
    have place : Text.oneLine (directory.getD "") = true := by simpa [Statement.oneLine] using plain
    rw [Statement.dump, Statement.dump, indentLinesAppend _ _ (dumpLineEnds _),
      indentDumpLine pre (by simp +decide [named, place]),
      indentDumpLine pre (by simp +decide [quoteOneLine])]
    simp only [String.empty_append, String.append_assoc]
  | .target name deps definedIn doubleColon steps, plain, pre => by
    simp only [Statement.oneLine, Bool.and_eq_true] at plain
    obtain ⟨⟨⟨named, depsPlain⟩, whereFrom⟩, stepsPlain⟩ := plain
    have colons : Text.oneLine (if doubleColon then "::" else ":") = true := by split <;> decide
    have joined : Text.oneLine (" ".intercalate deps) = true := oneLineIntercalate (by decide) depsPlain
    have header : Text.oneLine ("" ++ "Target " ++ name ++ (if doubleColon then "::" else ":") ++ " " ++
        " ".intercalate deps) = true := by
      simp +decide [named, colons, joined]
    rw [Statement.dump, Statement.dump, indentLinesAppend _ _ ((dumpLineEnds _).append (dumpLineEnds _)),
      indentLinesAppend _ _ (dumpLineEnds _), indentDumpLine pre header,
      indentDumpLine pre (by simp +decide [whereFrom])]
    -- the steps are dumped four spaces in, which the indent then moves in further
    simp only [String.empty_append]
    rw [Statement.dumpAllIndented steps stepsPlain "    ", ← indentLinesCompose _ _ _ (by decide),
      ← Statement.dumpAllIndented steps stepsPlain (pre ++ "    ")]
    simp only [String.append_assoc]
  | .conditional guard steps tail, plain, pre => by
    simp only [Statement.oneLine, Bool.and_eq_true] at plain
    obtain ⟨⟨condition, stepsPlain⟩, tailPlain⟩ := plain
    rw [Statement.dump, Statement.dump, indentLinesAppend _ _ ((dumpGuardEnds _ _ _).append (Statement.dumpAllEnds _ _)),
      indentLinesAppend _ _ (dumpGuardEnds _ _ _), indentDumpGuard pre "" guard (by decide) condition,
      ← Tail.dumpIndented tail tailPlain pre]
    simp only [String.empty_append]
    rw [Statement.dumpAllIndented steps stepsPlain "  ", ← indentLinesCompose _ _ _ (by decide),
      ← Statement.dumpAllIndented steps stepsPlain (pre ++ "  ")]

theorem Statement.dumpAllIndented : ∀ (ss : List Statement), Statement.allOneLine ss = true →
    ∀ pre : String, Statement.dumpAll pre ss = indentLines pre (Statement.dumpAll "" ss)
  | [], _, _ => rfl
  | s :: rest, plain, pre => by
    simp only [Statement.allOneLine, Bool.and_eq_true] at plain
    rw [Statement.dumpAll, Statement.dumpAll, indentLinesAppend _ _ (Statement.dumpEnds "" s),
      ← Statement.dumpIndented s plain.1 pre, ← Statement.dumpAllIndented rest plain.2 pre]

theorem Tail.dumpIndented : ∀ (t : Tail), t.oneLine = true → ∀ pre : String,
    Tail.dump pre t = indentLines pre (Tail.dump "" t)
  | .endif, _, _ => rfl
  | .elseIf guard steps tail, plain, pre => by
    simp only [Tail.oneLine, Bool.and_eq_true] at plain
    obtain ⟨⟨condition, stepsPlain⟩, tailPlain⟩ := plain
    rw [Tail.dump, Tail.dump, indentLinesAppend _ _ ((dumpGuardEnds _ _ _).append (Statement.dumpAllEnds _ _)),
      indentLinesAppend _ _ (dumpGuardEnds _ _ _), indentDumpGuard pre "Else " guard (by decide) condition,
      ← Tail.dumpIndented tail tailPlain pre]
    simp only [String.empty_append]
    rw [Statement.dumpAllIndented steps stepsPlain "  ", ← indentLinesCompose _ _ _ (by decide),
      ← Statement.dumpAllIndented steps stepsPlain (pre ++ "  ")]
  | .otherwise steps, plain, pre => by
    rw [Tail.dump, Tail.dump, indentLinesAppend _ _ (dumpLineEnds _), indentDumpLine pre (by decide)]
    simp only [String.empty_append]
    rw [Statement.dumpAllIndented steps plain "  ", ← indentLinesCompose _ _ _ (by decide),
      ← Statement.dumpAllIndented steps plain (pre ++ "  ")]

end

end Laws

open Text

theorem Makefile.dumpNodesIndented (m : Makefile) (plain : Statement.allOneLine m.statements = true) :
    m.dump = "AST:\n" ++ m.context.dump "\t" ++ "\tNodes:\n" ++
      indentLines "\t\t" (Statement.dumpAll "" m.statements) := by
  rw [Makefile.dump, Statement.dumpAllIndented m.statements plain]

theorem Statement.dumpIndentsEveryLine (pre : String) (m : Makefile) :
    (∀ s : Statement, s.oneLine = true → s.dump pre = indentLines pre (s.dump "")) ∧
      (Statement.allOneLine m.statements = true →
        m.dump = "AST:\n" ++ m.context.dump "\t" ++ "\tNodes:\n" ++
          indentLines "\t\t" (Statement.dumpAll "" m.statements)) :=
  ⟨fun s plain => Statement.dumpIndented s plain pre, Makefile.dumpNodesIndented m⟩

theorem Statement.nestedRuleDumpsIndented :
    let m : Makefile := ⟨"Makefile", Context.empty "/w", [.conditional ⟨"(a,b)", true⟩
      [.target "all" ["lib"] "Makefile" false [.command "make -C lib && echo done"]]
      (.otherwise [.comment " none"])]⟩
    Statement.allOneLine m.statements = true ∧
      m.dump = "AST:\n" ++ m.context.dump "\t" ++ "\tNodes:\n" ++
        indentLines "\t\t" (Statement.dumpAll "" m.statements) :=
  ⟨by decide, (Statement.dumpIndentsEveryLine "\t\t" _).2 (by decide)⟩

-- a path with a line feed is no one-line text: the second line of `Defined in` gets no indent
set_option maxRecDepth 8192 in
example :
    (match (Makefile.parseText ⟨"/w", ["/w"], []⟩ "a:\n" "x\ny" none).run.1 with
      | .ok m => (m.dump, "AST:\n" ++ m.context.dump "\t" ++ "\tNodes:\n" ++
          indentLines "\t\t" (Statement.dumpAll "" m.statements))
      | .error h => (h.message, "")) =
      ("AST:\n\tContext:\n\tNodes:\n\t\tTarget a: \n\t\t  Defined in: x\ny\n",
        "AST:\n\tContext:\n\tNodes:\n\t\tTarget a: \n\t\t  Defined in: x\n\t\ty\n") := by
  decide

end Maketree
