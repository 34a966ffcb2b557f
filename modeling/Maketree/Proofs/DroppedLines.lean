import Mathlib
import Maketree.Proofs.LinesMet
/-! The input with the conditional directive lines dropped, and the mirror that relates the two
readings line for line. -/
namespace Maketree

open Journal Expansion
open LineStream (Tracks Faulty ReadAhead)

namespace Parse

def Use.standIn : Use → String → List String
  | .kept, text => [text]
  | .consumed none, _ => []
  | .consumed (some s), _ => [s]

def Trace.standIn (T : Trace) (text : String) (loc : Location) : List String :=
  match T.find? (·.loc == some loc) with
  | some m => m.use.standIn text
  | none => [text]

def Trace.standFor (T : Trace) (path : String) (lines : List (String × Nat)) : List String :=
  lines.flatMap fun line => T.standIn line.1 ⟨path, line.2⟩

def Trace.edited (T : Trace) (pending : Pending) : List (String × List String) :=
  pending.map fun file => (file.1, T.standFor file.1 file.2)

def texts (pending : Pending) : List (String × List String) :=
  pending.map fun file => (file.1, file.2.map Prod.fst)

def fromFirstLine (files : List (String × List String)) : List (String × List String) :=
  files.dropWhile fun file => file.2.isEmpty

def Trace.drops (T : Trace) (path : String) :
    Except OpenFailure (List UInt8) → Except OpenFailure (List UInt8) → Bool
  | .ok before, .ok after =>
    (Source.ofBytes after).failure.isNone &&
      (LogicalLine.expand 0 (Source.ofBytes after).lines).map Prod.fst ==
        T.standFor path (LogicalLine.expand 0 (Source.ofBytes before).lines)
  | _, _ => false

structure DropsDirectives (T : Trace) (opened : List String) (files files' : FileSystem) : Prop where
  cwd : files'.cwd = files.cwd
  directories : files'.directories = files.directories
  keys : files'.files.map Prod.fst = files.files.map Prod.fst
  edited : ∀ p ∈ opened, T.drops p (files.read p) (files'.read p) = true

instance (T : Trace) (opened : List String) (files files' : FileSystem) :
    Decidable (DropsDirectives T opened files files') :=
  decidable_of_iff (files'.cwd = files.cwd ∧ files'.directories = files.directories ∧
      files'.files.map Prod.fst = files.files.map Prod.fst ∧
      ∀ p ∈ opened, T.drops p (files.read p) (files'.read p) = true)
    ⟨fun ⟨a, b, c, d⟩ => ⟨a, b, c, d⟩, fun ⟨a, b, c, d⟩ => ⟨a, b, c, d⟩⟩

def TabSafe (T : Trace) : Prop :=
  T.IsChain fun m m' => m.use = .kept ∨ m'.text.toList.head? ≠ some '\t'

instance (T : Trace) : Decidable (TabSafe T) := inferInstanceAs (Decidable (List.IsChain _ T))

def Notice.openedPath? : Notice → Option String
  | .openedFile p => some p
  | _ => none

def openedPaths (log : List Notice) : List String := log.filterMap Notice.openedPath?

section Pending

variable {T : Trace}

theorem editedCons (path : String) (ls : List (String × Nat)) (rest : Pending) :
    T.edited ((path, ls) :: rest) = (path, T.standFor path ls) :: T.edited rest := rfl

theorem standForCons (path text : String) (n : Nat) (ls : List (String × Nat)) :
    T.standFor path ((text, n) :: ls) = T.standIn text ⟨path, n⟩ ++ T.standFor path ls := by
  simp [Trace.standFor]

theorem fromFirstLineEmpty (path : String) (rest : List (String × List String)) :
    fromFirstLine ((path, []) :: rest) = fromFirstLine rest := by
  simp [fromFirstLine]

theorem editedDrop {pending rest : Pending} {text : String} {loc : Location}
    (first : next pending = some ((text, loc), rest)) (dropped : T.standIn text loc = []) :
    fromFirstLine (T.edited pending) = fromFirstLine (T.edited rest) := by
  induction pending with
  | nil => simp [next] at first
  | cons file others ih =>
    obtain ⟨path, _ | ⟨⟨t, n⟩, more⟩⟩ := file
    · rw [editedCons, Trace.standFor, List.flatMap_nil, fromFirstLineEmpty]
      exact ih first
    · simp only [next, Option.some.injEq, Prod.mk.injEq] at first
      obtain ⟨⟨rfl, rfl⟩, rfl⟩ := first
      rw [editedCons, standForCons, dropped, List.nil_append, editedCons]

theorem editedFirst {pending rest : Pending} {text u : String} {loc : Location}
    (first : next pending = some ((text, loc), rest)) (stands : T.standIn text loc = [u]) :
    ∃ ls others, fromFirstLine (T.edited pending) = (loc.path, u :: ls) :: others ∧
      T.edited rest = (loc.path, ls) :: others := by
  induction pending with
  | nil => simp [next] at first
  | cons file others ih =>
    obtain ⟨path, _ | ⟨⟨t, n⟩, more⟩⟩ := file
    · rw [editedCons, Trace.standFor, List.flatMap_nil, fromFirstLineEmpty]
      exact ih first
    · simp only [next, Option.some.injEq, Prod.mk.injEq] at first
      obtain ⟨⟨rfl, rfl⟩, rfl⟩ := first
      refine ⟨_, _, ?_, editedCons _ _ _⟩
      rw [editedCons, standForCons, stands]
      simp [fromFirstLine]

theorem editedEnded {pending : Pending} (none : next pending = none) :
    fromFirstLine (T.edited pending) = [] := by
  induction pending with
  | nil => rfl
  | cons file others ih =>
    obtain ⟨path, _ | ⟨⟨t, n⟩, more⟩⟩ := file
    · rw [editedCons, Trace.standFor, List.flatMap_nil, fromFirstLineEmpty]
      exact ih none
    · simp [next] at none

theorem nextTexts {pending : Pending} {path u : String} {ls : List String}
    {others : List (String × List String)} (same : fromFirstLine (texts pending) = (path, u :: ls) :: others) :
    ∃ n rest, next pending = some ((u, ⟨path, n⟩), rest) ∧ texts rest = (path, ls) :: others := by
  induction pending with
  | nil => simp [texts, fromFirstLine] at same
  | cons file more ih =>
    obtain ⟨p, _ | ⟨⟨t, n⟩, lines⟩⟩ := file
    · simp only [texts, List.map_cons, List.map_nil] at same
      rw [fromFirstLineEmpty] at same
      exact ih same
    · simp only [texts, List.map_cons, fromFirstLine, List.isEmpty_cons, Bool.false_eq_true,
        not_false_eq_true, List.dropWhile_cons_of_neg, List.cons.injEq, Prod.mk.injEq] at same
      obtain ⟨⟨rfl, rfl, rfl⟩, rfl⟩ := same
      exact ⟨n, _, rfl, rfl⟩

theorem textsEnded {pending : Pending} (same : fromFirstLine (texts pending) = []) : next pending = none := by
  induction pending with
  | nil => rfl
  | cons file more ih =>
    obtain ⟨p, _ | ⟨⟨t, n⟩, lines⟩⟩ := file
    · simp only [texts, List.map_cons, List.map_nil] at same
      rw [fromFirstLineEmpty] at same
      exact ih same
    · simp [texts, fromFirstLine] at same

end Pending

theorem standInFound {T : Trace} {m : Met} {loc : Location} (found : T.find? (·.loc == some loc) = some m)
    (text : String) : T.standIn text loc = m.use.standIn text := by
  simp [Trace.standIn, found]

theorem expandFromAbove (n k : Nat) (lines : List String) :
    ∀ x ∈ LogicalLine.expandFrom n k lines, n < x.2 := by
  induction lines generalizing n k with
  | nil => simp [LogicalLine.expandFrom]
  | cons l rest ih =>
    intro x mem
    cases k with
    | succ k =>
      have := ih (n + 1) k x (by simpa [LogicalLine.expandFrom] using mem)
      omega
    | zero =>
      simp only [LogicalLine.expandFrom] at mem
      split at mem
      · have := ih (n + 1) 0 x mem
        omega
      split at mem
      · rcases List.mem_cons.mp mem with rfl | mem
        · simp
        · have := ih (n + 1) _ x mem
          omega
      · rcases List.mem_cons.mp mem with rfl | mem
        · simp
        · have := ih (n + 1) 0 x mem
          omega

theorem expandFromOrdered (n k : Nat) (lines : List String) :
    ((LogicalLine.expandFrom n k lines).map Prod.snd).Pairwise (· < ·) := by
  induction lines generalizing n k with
  | nil => simp [LogicalLine.expandFrom]
  | cons l rest ih =>
    cases k with
    | succ k => simpa [LogicalLine.expandFrom] using ih (n + 1) k
    | zero =>
      simp only [LogicalLine.expandFrom]
      split
      · exact ih (n + 1) 0
      split
      · rw [List.map_cons, List.pairwise_cons]
        refine ⟨fun y mem => ?_, ih (n + 1) _⟩
        obtain ⟨x, inExpand, rfl⟩ := List.mem_map.mp mem
        exact expandFromAbove (n + 1) _ rest x inExpand
      · rw [List.map_cons, List.pairwise_cons]
        refine ⟨fun y mem => ?_, ih (n + 1) 0⟩
        obtain ⟨x, inExpand, rfl⟩ := List.mem_map.mp mem
        exact expandFromAbove (n + 1) 0 rest x inExpand

theorem expandNumbers (n : Nat) (lines : List String) :
    ((LogicalLine.expand n lines).map Prod.snd).Nodup :=
  (expandFromOrdered n 0 lines).imp (ne_of_lt)

theorem dropsOk {T : Trace} {path : String} {before after : List UInt8}
    (drops : T.drops path (.ok before) (.ok after) = true) :
    (Source.ofBytes after).failure = none ∧ (LogicalLine.expand 0 (Source.ofBytes after).lines).map Prod.fst =
      T.standFor path (LogicalLine.expand 0 (Source.ofBytes before).lines) := by
  simpa [Trace.drops, Option.isNone_iff_eq_none] using drops

/-- The setting of a mirrored reading: the lines `T` that reading the input met, the path `root` of
its root makefile, the paths `opened` of the files that reading opened after the root, in order,
the file system `files` of the input and `files'`, the one with the conditional directive lines
dropped. -/
structure Mirror where
  T : Trace
  root : String
  opened : List String
  files : FileSystem
  files' : FileSystem

namespace Mirror

variable (M : Mirror)

structure Valid : Prop where
  nodup : (M.root :: M.opened).Nodup
  tabs : TabSafe M.T
  drops : DropsDirectives M.T M.opened M.files M.files'

structure Fresh (past : Trace) (before : List String) (ahead : List (String × Location)) : Prop where
  nodup : (ahead.map Prod.snd).Nodup
  unmet : ∀ x ∈ ahead, ∀ m ∈ past, m.loc ≠ some x.2
  paths : ∀ x ∈ ahead, x.2.path ∈ M.root :: before
  pastPaths : ∀ m ∈ past, ∀ loc, m.loc = some loc → loc.path ∈ M.root :: before

structure Agree (r r' : Reader) : Prop where
  context : r'.context = r.context
  files : r.stream.files = M.files
  files' : r'.stream.files = M.files'
  workDir : r'.stream.workDir = r.stream.workDir
  fine : ¬Faulty r'.stream.frames

structure Aligned (past : Trace) (before : List String) (r r' : Reader) (pending pending' : Pending) : Prop where
  agree : M.Agree r r'
  tracks : Tracks r.stream pending
  tracks' : Tracks r'.stream pending'
  same : fromFirstLine (texts pending') = fromFirstLine (M.T.edited pending)
  fresh : M.Fresh past before (lines pending)

def Ready (past : Trace) (before : List String) (r r' : Reader) : Prop :=
  ∃ pending pending', M.Aligned past before r r' pending pending'

structure Waiting (past : Trace) (before : List String) (r r' : Reader) : Prop where
  agree : M.Agree r r'
  frames : texts (r'.stream.frames.map Frame.view) = M.T.edited (r.stream.frames.map Frame.view)
  fresh : M.Fresh past before (lines (r.stream.frames.map Frame.view))

variable {M}

namespace Fresh

variable {past : Trace} {before : List String} {x : String × Location} {ahead : List (String × Location)}

theorem read {m : Met} (fresh : M.Fresh past before (x :: ahead)) (at_ : m.loc = some x.2) :
    M.Fresh (past ++ [m]) before ahead := by
  obtain ⟨nodup, unmet, paths, pastPaths⟩ := fresh
  simp only [List.map_cons, List.nodup_cons, List.mem_map] at nodup
  refine ⟨nodup.2, fun y mem m' met => ?_, fun y mem => paths y (List.mem_cons_of_mem _ mem),
    fun m' met loc at' => ?_⟩
  · rcases List.mem_append.mp met with met | met
    · exact unmet y (List.mem_cons_of_mem _ mem) m' met
    · rw [List.mem_singleton.mp met, at_]
      intro same
      exact nodup.1 ⟨y, mem, (Option.some.inj same).symm⟩
  · rcases List.mem_append.mp met with met | met
    · exact pastPaths m' met loc at'
    · rw [List.mem_singleton.mp met, at_] at at'
      rw [← Option.some.inj at']
      exact paths x List.mem_cons_self

theorem found {m : Met} {later : Trace} (fresh : M.Fresh past before (x :: ahead))
    (split : M.T = past ++ m :: later) (at_ : m.loc = some x.2) : M.T.find? (·.loc == some x.2) = some m := by
  rw [split, List.find?_append, List.find?_eq_none.mpr, Option.none_or, List.find?_cons_of_pos]
  · simp [at_]
  · intro m' met
    simpa using fresh.unmet x List.mem_cons_self m' met

theorem push {p : String} {ls : List (String × Nat)} (fresh : M.Fresh past before ahead)
    (newPath : p ∉ M.root :: before) (numbers : (ls.map Prod.snd).Nodup) :
    M.Fresh past (before ++ [p]) (ls.map (fun line => (line.1, ⟨p, line.2⟩)) ++ ahead) := by
  obtain ⟨nodup, unmet, paths, pastPaths⟩ := fresh
  have widen : ∀ q, q ∈ M.root :: before → q ∈ M.root :: (before ++ [p]) := by
    intro q mem
    simp only [List.mem_cons, List.mem_append] at mem ⊢
    tauto
  refine ⟨?_, fun y mem m' met => ?_, fun y mem => ?_, fun m' met loc at' => widen _ (pastPaths m' met loc at')⟩
  · have image : (ls.map fun line => (line.1, (⟨p, line.2⟩ : Location))).map Prod.snd =
        (ls.map Prod.snd).map (Location.mk p) := by
      simp
    rw [List.map_append, image, List.nodup_append]
    refine ⟨numbers.map fun a b same => (Location.mk.inj same).2, nodup, ?_⟩
    · intro a memA b memB same
      obtain ⟨n, -, rfl⟩ := List.mem_map.mp memA
      obtain ⟨y, memY, rfl⟩ := List.mem_map.mp memB
      have path : p = y.2.path := congrArg Location.path same
      exact newPath (path ▸ paths y memY)
  · rcases List.mem_append.mp mem with mem | mem
    · obtain ⟨line, -, rfl⟩ := List.mem_map.mp mem
      intro at'
      exact newPath (pastPaths m' met _ at')
    · exact unmet y mem m' met
  · rcases List.mem_append.mp mem with mem | mem
    · obtain ⟨line, -, rfl⟩ := List.mem_map.mp mem
      simp
    · exact widen _ (paths y mem)

end Fresh

namespace Agree

variable {r r' r₁ r₁' : Reader}

theorem move (agree : M.Agree r r') (context : r₁.context = r.context) (files : r₁.stream.files = r.stream.files)
    (workDir : r₁.stream.workDir = r.stream.workDir) (context' : r₁'.context = r'.context)
    (files' : r₁'.stream.files = r'.stream.files) (workDir' : r₁'.stream.workDir = r'.stream.workDir)
    (fine : ¬Faulty r₁'.stream.frames) : M.Agree r₁ r₁' :=
  ⟨by rw [context, context', agree.context], by rw [files, agree.files], by rw [files', agree.files'],
    by rw [workDir, workDir', agree.workDir], fine⟩

end Agree

namespace Aligned

variable {past : Trace} {before : List String} {r r' r₁ r₁' : Reader} {pending pending' rest : Pending}
  {text : String} {loc : Location} {m : Met} {later : Trace}

theorem standIn (aligned : M.Aligned past before r r' pending pending')
    (first : next pending = some ((text, loc), rest)) (split : M.T = past ++ m :: later) (at_ : m.loc = some loc) :
    M.T.standIn text loc = m.use.standIn text := by
  have fresh := aligned.fresh
  rw [linesNext first] at fresh
  exact standInFound (fresh.found split at_) text

theorem drop (aligned : M.Aligned past before r r' pending pending')
    (first : next pending = some ((text, loc), rest)) (split : M.T = past ++ m :: later) (at_ : m.loc = some loc)
    (dropped : m.use = .consumed none) (tracks : Tracks r₁.stream rest) (agree : M.Agree r₁ r') :
    M.Aligned (past ++ [m]) before r₁ r' rest pending' := by
  have fresh := aligned.fresh
  rw [linesNext first] at fresh
  refine ⟨agree, tracks, aligned.tracks', ?_, fresh.read at_⟩
  rw [aligned.same, editedDrop first (by rw [aligned.standIn first split at_, dropped]; rfl)]

theorem mirrorNext (aligned : M.Aligned past before r r' pending pending')
    (first : next pending = some ((text, loc), rest)) (split : M.T = past ++ m :: later) (at_ : m.loc = some loc)
    {u : String} (stands : m.use.standIn text = [u]) :
    ∃ n rest', next pending' = some ((u, ⟨loc.path, n⟩), rest') ∧ texts rest' = M.T.edited rest := by
  obtain ⟨ls, others, firstLine, edited⟩ := editedFirst first (by rw [aligned.standIn first split at_, stands])
  rw [← aligned.same] at firstLine
  obtain ⟨n, rest', next', texts'⟩ := nextTexts firstLine
  exact ⟨n, rest', next', texts'.trans edited.symm⟩

theorem read (aligned : M.Aligned past before r r' pending pending')
    (first : next pending = some ((text, loc), rest)) (at_ : m.loc = some loc) {rest' : Pending}
    (same : texts rest' = M.T.edited rest) (tracks : Tracks r₁.stream rest) (tracks' : Tracks r₁'.stream rest')
    (agree : M.Agree r₁ r₁') : M.Aligned (past ++ [m]) before r₁ r₁' rest rest' := by
  have fresh := aligned.fresh
  rw [linesNext first] at fresh
  exact ⟨agree, tracks, tracks', by rw [same], fresh.read at_⟩

theorem wait (aligned : M.Aligned past before r r' pending pending')
    (first : next pending = some ((text, loc), rest)) (at_ : m.loc = some loc) {rest' : Pending}
    (same : texts rest' = M.T.edited rest) (frames : r₁.stream.frames.map Frame.view = rest)
    (frames' : r₁'.stream.frames.map Frame.view = rest') (agree : M.Agree r₁ r₁') :
    M.Waiting (past ++ [m]) before r₁ r₁' := by
  have fresh := aligned.fresh
  rw [linesNext first] at fresh
  exact ⟨agree, by rw [frames, frames', same], by rw [frames]; exact fresh.read at_⟩

theorem ended (aligned : M.Aligned past before r r' pending pending') (used : next pending = none) :
    next pending' = none :=
  textsEnded (aligned.same.trans (editedEnded used))

end Aligned

theorem Waiting.push {past : Trace} {before : List String} {r r' r₁ r₁' : Reader} {p : String}
    {bytes bytes' : List UInt8} {closed closed' : List String} (waiting : M.Waiting past before r r')
    (newPath : p ∉ M.root :: before) (drops : M.T.drops p (.ok bytes) (.ok bytes') = true)
    (ahead : ReadAhead { r.stream with frames := Frame.ofSource p (Source.ofBytes bytes) :: r.stream.frames }
      r₁.stream closed)
    (ahead' : ReadAhead { r'.stream with frames := Frame.ofSource p (Source.ofBytes bytes') :: r'.stream.frames }
      r₁'.stream closed')
    (agree : M.Agree r₁ r₁') :
    M.Aligned past (before ++ [p]) r₁ r₁'
      ((p, LogicalLine.expand 0 (Source.ofBytes bytes).lines) :: r.stream.frames.map Frame.view)
      ((p, LogicalLine.expand 0 (Source.ofBytes bytes').lines) :: r'.stream.frames.map Frame.view) := by
  have tracks := ahead.tracks
  have tracks' := ahead'.tracks
  simp only [List.map_cons, Frame.viewOfSource] at tracks tracks'
  refine ⟨agree, tracks, tracks', ?_, ?_⟩
  · rw [show texts ((p, LogicalLine.expand 0 (Source.ofBytes bytes').lines) :: r'.stream.frames.map Frame.view) =
      M.T.edited ((p, LogicalLine.expand 0 (Source.ofBytes bytes).lines) :: r.stream.frames.map Frame.view) by
      simp only [texts, Trace.edited, List.map_cons, (dropsOk drops).2]
      exact congrArg _ waiting.frames]
  · rw [linesCons]
    exact waiting.fresh.push newPath (expandNumbers 0 _)

end Mirror

end Parse

end Maketree
