import Mathlib
import Maketree.Proofs.MirrorLoop
/-! The mirror's loop follows the flat reading of the input, a piece at a time. -/
namespace Maketree

open Journal Expansion
open LineStream (Tracks Faulty ReadAhead upcoming upcomingOf readLineWaits readLineMoves)

namespace Parse

theorem openedPathsAppend (a b : List Notice) : openedPaths (a ++ b) = openedPaths a ++ openedPaths b := by
  simp [openedPaths]

@[simp] theorem openedPathsCloses (closed : List String) : openedPaths (closed.map Notice.closedFile) = [] := by
  simp [openedPaths, Notice.openedPath?]

namespace Mirror

def After (M : Mirror) (past : Trace) (before : List String) (r r' : Reader) (u : String) : Prop :=
  if isInclude u then M.Waiting past before r r' ∧ r'.stream.Ahead ∧ r'.stream.eof = false
  else M.Ready past before r r'

def SamePlace (r r' : Reader) : Prop :=
  ∃ loc loc', r.stream.loc = some loc ∧ r'.stream.loc = some loc' ∧ loc'.path = loc.path

def LoopFollows (M : Mirror) (past : Trace) (before : List String) (r : Reader)
    (x : List Statement × Trace) (r₁ : Reader) (events : List Notice) : Prop :=
  ∀ r', M.Ready past before r r' → ∀ later, M.T = past ++ x.2 ++ later →
    Continues later r₁.stream.upcoming → before ++ openedPaths events <+: M.opened →
    ∃ r₁' cost, Absorbs r' x.1 cost r₁' ∧ M.Ready (past ++ x.2) (before ++ openedPaths events) r₁ r₁' ∧
      cost + 3 * M.budget r₁' (before ++ openedPaths events) ≤ 3 * M.budget r' before

structure LineRead (M : Mirror) (before : List String) (r'₀ : Reader) (u : String) (r' : Reader) : Prop where
  more : r'₀.stream.eof = false
  reads : Gives ((readLine none).run r'₀) (.ok (u, r'))
  budget : M.budget r'₀ before = M.budget r' before + if isInclude u then 0 else 1

def StatementFollows (M : Mirror) (past : Trace) (before : List String) (u : String) (r : Reader)
    (x : List Statement × Trace) (r₁ : Reader) (events : List Notice) : Prop :=
  ∀ r'₀ r', M.LineRead before r'₀ u r' → M.After past before r r' u → SamePlace r r' → ∀ later,
    M.T = past ++ x.2 ++ later → Continues later r₁.stream.upcoming → before ++ openedPaths events <+: M.opened →
    ∃ r₁' cost, Absorbs r'₀ x.1 cost r₁' ∧ M.Ready (past ++ x.2) (before ++ openedPaths events) r₁ r₁' ∧
      cost + 3 * M.budget r₁' (before ++ openedPaths events) ≤ 3 * M.budget r'₀ before

variable {M : Mirror} {past : Trace} {before : List String} {r r' : Reader}

theorem Ready.ahead (ready : M.Ready past before r r') : r.stream.Ahead := by
  obtain ⟨pending, _, aligned⟩ := ready
  exact ⟨pending, aligned.tracks⟩

theorem Aligned.dropRead {pending pending' : Pending} {d : Option Bool} {use : String → Use}
    {r₁ : Reader} {closed : List String} (aligned : M.Aligned past before r r' pending pending')
    (more : r.stream.eof = false) (dropped : use r.stream.next = .consumed none) (context : r₁.context = r.context)
    (ahead : ReadAhead { r.stream with loc := r.stream.nextLoc } r₁.stream closed) {later : Trace}
    (split : M.T = past ++ ⟨r.stream.next, r.stream.nextLoc, d.getD (isInclude r.stream.next),
      use r.stream.next⟩ :: later) :
    ∃ rest, M.Aligned (past ++ [⟨r.stream.next, r.stream.nextLoc, d.getD (isInclude r.stream.next),
      use r.stream.next⟩]) before r₁ r' rest pending' := by
  have tracks := aligned.tracks
  cases tracks with
  | ended _ eof _ => simp [eof] at more
  | @ahead text loc rest first _ line lineLoc frames =>
    subst line
    have tracks₁ : Tracks r₁.stream rest := by simpa [frames] using ahead.tracks
    have agree := aligned.agree.move context ahead.files ahead.workDir rfl rfl rfl aligned.agree.fine
    exact ⟨rest, aligned.drop first split (by simp [lineLoc]) dropped tracks₁ agree⟩

theorem LoopFollows.dropThen {d : Option Bool} {use : String → Use} {q : String → ReadM (List Statement × Trace)}
    (more : r.stream.eof = false) (dropped : use r.stream.next = .consumed none)
    (moves : d.getD (isInclude r.stream.next) = false)
    (rest : ∀ r₁, Runs (q r.stream.next) r₁ (LoopFollows M (past ++ [⟨r.stream.next, r.stream.nextLoc,
      d.getD (isInclude r.stream.next), use r.stream.next⟩]) before r₁) ⊤) :
    Runs (Flat.readNoting d use >>= fun a => q a.1 >>= fun b => pure (b.1, a.2 ++ b.2)) r
      (LoopFollows M past before r) ⊤ := by
  refine (readNotingRuns d use r).bind fun a r₁ events ⟨noted, context, closed, logged, moved⟩ => ?_
  subst noted logged
  refine (rest r₁).bind fun b r₂ more' follows => Runs.ofPure ?_
  rw [if_neg (by simp [moves])] at moved
  intro r' ready later split cont within
  obtain ⟨pending, pending', aligned⟩ := ready
  simp only [openedPathsAppend, openedPathsCloses, List.nil_append, List.append_nil] at within ⊢
  have split₁ : M.T = past ++ ⟨r.stream.next, r.stream.nextLoc, d.getD (isInclude r.stream.next),
      use r.stream.next⟩ :: (b.2 ++ later) := by
    rw [split]
    simp
  obtain ⟨rest₁, aligned₁⟩ := aligned.dropRead more dropped context moved split₁
  obtain ⟨r₂', cost, absorbs, ready₂, budget⟩ :=
    follows r' ⟨_, _, aligned₁⟩ later (by rw [split]; simp) cont within
  exact ⟨r₂', cost, absorbs, by simpa using ready₂, budget⟩

theorem LoopFollows.done : Runs (pure ([], [])) r (LoopFollows M past before r) ⊤ :=
  Runs.ofPure fun r' ready _ _ _ _ => ⟨r', 0, Absorbs.refl r', by simpa [openedPaths] using ready, by simp [openedPaths]⟩

theorem budgetMoved {r₁' : Reader} {x : String × Location}
    (moved : r'.stream.upcoming = x :: r₁'.stream.upcoming) :
    M.budget r' before = M.budget r₁' before + 1 := by
  simp only [Mirror.budget, moved, List.length_cons]
  omega

theorem Aligned.nextBoth {pending pending' : Pending} {m : Met} {later : Trace} {u : String}
    (aligned : M.Aligned past before r r' pending pending') (more : r.stream.eof = false)
    (split : M.T = past ++ m :: later) (at_ : m.loc = r.stream.nextLoc)
    (stands : m.use.standIn r.stream.next = [u]) :
    ∃ loc rest n rest', next pending = some ((r.stream.next, loc), rest) ∧ r.stream.nextLoc = some loc ∧
      r.stream.frames.map Frame.view = rest ∧ next pending' = some ((u, ⟨loc.path, n⟩), rest') ∧
      r'.stream.eof = false ∧ r'.stream.next = u ∧ r'.stream.nextLoc = some ⟨loc.path, n⟩ ∧
      r'.stream.frames.map Frame.view = rest' ∧ texts rest' = M.T.edited rest := by
  have tracks := aligned.tracks
  cases tracks with
  | ended _ eof _ => simp [eof] at more
  | @ahead text loc rest first _ line lineLoc frames =>
  subst line
  obtain ⟨n, rest', first', same⟩ := aligned.mirrorNext first split (by rw [at_, lineLoc]) stands
  have tracks' := aligned.tracks'
  cases tracks' with
  | ended none _ _ => simp [none] at first'
  | @ahead text' loc' rest'' first'' eof' line' lineLoc' frames' =>
  rw [first''] at first'
  simp only [Option.some.injEq, Prod.mk.injEq] at first'
  obtain ⟨⟨textSame, rfl⟩, rfl⟩ := first'
  rw [textSame] at line' first''
  exact ⟨loc, rest, n, _, first, lineLoc, frames, first'', eof', line', lineLoc', frames', same⟩

theorem Aligned.readOn {pending pending' : Pending} {m : Met} {later : Trace} {u : String} {d : Option Bool}
    {r₁ : Reader} {closed : List String} (aligned : M.Aligned past before r r' pending pending')
    (more : r.stream.eof = false) (split : M.T = past ++ m :: later) (at_ : m.loc = r.stream.nextLoc)
    (stands : m.use.standIn r.stream.next = [u]) (moves : d.getD (isInclude u) = false)
    (context : r₁.context = r.context) (moved : ReadAhead { r.stream with loc := r.stream.nextLoc } r₁.stream closed) :
    ∃ s', r'.stream.eof = false ∧ r'.stream.next = u ∧ Gives (r'.stream.readLine d) (.ok (u, s')) ∧
      M.Ready (past ++ [m]) before r₁ { r' with stream := s' } ∧ SamePlace r₁ { r' with stream := s' } ∧
      M.budget r' before = M.budget { r' with stream := s' } before + 1 := by
  obtain ⟨loc, rest, n, rest'', first, lineLoc, frames, first'', eof', line', lineLoc', frames', same⟩ :=
    aligned.nextBoth more split at_ stands
  obtain ⟨s', closed', views, ahead', logs'⟩ := readLineMoves (.ahead first'' eof' line' lineLoc' frames') first'' moves
  have tracks₁ : Tracks r₁.stream rest := by simpa [frames] using moved.tracks
  have tracks₁' : Tracks s' rest'' := by simpa [views] using ahead'.tracks
  have agree : M.Agree r₁ { r' with stream := s' } := aligned.agree.move context moved.files moved.workDir rfl
    ahead'.files ahead'.workDir (ahead'.sound aligned.agree.fine)
  refine ⟨s', eof', line', (logs'.logs aligned.agree.fine).gives,
    ⟨_, _, aligned.read first (by rw [at_, lineLoc]) same tracks₁ tracks₁' agree⟩,
    ⟨loc, _, by rw [moved.loc]; exact lineLoc, ahead'.loc, rfl⟩, budgetMoved (x := (u, ⟨loc.path, n⟩)) ?_⟩
  rw [upcomingOf (.ahead first'' eof' line' lineLoc' frames'), linesNext first'', upcomingOf tracks₁']

theorem Aligned.readWaits {pending pending' : Pending} {m : Met} {later : Trace} {u : String}
    {r₁ : Reader} (aligned : M.Aligned past before r r' pending pending') (more : r.stream.eof = false)
    (split : M.T = past ++ m :: later) (at_ : m.loc = r.stream.nextLoc) (stands : m.use.standIn r.stream.next = [u])
    (included : isInclude u = true) (context : r₁.context = r.context)
    (moved : r₁.stream = { r.stream with loc := r.stream.nextLoc }) :
    ∃ r₁', r'.stream.eof = false ∧ Gives ((readLine none).run r') (.ok (u, r₁')) ∧
      M.After (past ++ [m]) before r₁ r₁' u ∧ SamePlace r₁ r₁' ∧ M.budget r' before = M.budget r₁' before := by
  obtain ⟨loc, rest, n, rest'', first, lineLoc, frames, first'', eof', line', lineLoc', frames', same⟩ :=
    aligned.nextBoth more split at_ stands
  let r₁' : Reader := { r' with stream := { r'.stream with loc := some ⟨loc.path, n⟩ } }
  have agree : M.Agree r₁ r₁' :=
    aligned.agree.move context (by rw [moved]) (by rw [moved]) rfl rfl rfl aligned.agree.fine
  have waiting := aligned.wait first (by rw [at_, lineLoc]) same (by rw [moved]; exact frames)
    (show r₁'.stream.frames.map Frame.view = _ from frames') agree
  refine ⟨r₁', eof', ?_, ?_, ⟨loc, _, by rw [moved]; exact lineLoc, rfl, rfl⟩, rfl⟩
  · rw [readLineRun]
    exact givesBind (readLineWaits line' lineLoc' (by simpa using included)).gives (givesPure _)
  · rw [After, if_pos included]
    exact ⟨waiting, LineStream.aheadRelocate ⟨_, .ahead first'' eof' line' lineLoc' frames'⟩ _, eof'⟩

theorem LoopFollows.lineThen {d : Option Bool} {use : String → Use} {u : String}
    {q : String → ReadM (List Statement × Trace)} (more : r.stream.eof = false)
    (stands : (use r.stream.next).standIn r.stream.next = [u])
    (waits : d.getD (isInclude r.stream.next) = isInclude u)
    (stmt : ∀ r₁, Runs (q r.stream.next) r₁ (StatementFollows M (past ++ [⟨r.stream.next, r.stream.nextLoc,
      d.getD (isInclude r.stream.next), use r.stream.next⟩]) before u r₁) ⊤) :
    Runs (Flat.readNoting d use >>= fun a => q a.1 >>= fun b => pure (b.1, a.2 ++ b.2)) r
      (LoopFollows M past before r) ⊤ := by
  refine (readNotingRuns d use r).bind fun a r₁ events ⟨noted, context, closed, logged, moved⟩ => ?_
  subst noted logged
  refine (stmt r₁).bind fun b r₂ more' follows => Runs.ofPure ?_
  intro r' ready later split cont within
  obtain ⟨pending, pending', aligned⟩ := ready
  simp only [openedPathsAppend, openedPathsCloses, List.nil_append, List.append_nil] at within ⊢
  have split₁ : M.T = past ++ ⟨r.stream.next, r.stream.nextLoc, d.getD (isInclude r.stream.next),
      use r.stream.next⟩ :: (b.2 ++ later) := by
    rw [split]
    simp
  have split₂ : M.T = past ++ [⟨r.stream.next, r.stream.nextLoc, d.getD (isInclude r.stream.next),
      use r.stream.next⟩] ++ b.2 ++ later := by
    rw [split]
    simp
  by_cases included : isInclude u = true
  · -- both wait for the include that the statement of `u` opens
    rw [waits, if_pos included] at moved
    obtain ⟨r₁', more', reads, after, place, budget⟩ :=
      aligned.readWaits more split₁ rfl stands included context moved
    obtain ⟨r₂', cost, absorbs, ready₂, budget₂⟩ := follows r' r₁'
      ⟨more', reads, by rw [budget, if_pos included, Nat.add_zero]⟩ after place later split₂ cont within
    exact ⟨r₂', cost, absorbs, by simpa using ready₂, budget₂⟩
  · -- both read on
    rw [waits, if_neg included] at moved
    obtain ⟨s', more', -, reads, ready₁, place, budget⟩ :=
      aligned.readOn more split₁ rfl stands (show (none : Option Bool).getD (isInclude u) = false by simpa using included)
        context moved
    have read : M.LineRead before r' u { r' with stream := s' } :=
      ⟨more', by rw [readLineRun]; exact givesBind reads (givesPure _), by rw [budget, if_neg included]⟩
    obtain ⟨r₂', cost, absorbs, ready₂, budget₂⟩ :=
      follows r' _ read (by rw [After, if_neg included]; exact ready₁) place later split₂ cont within
    exact ⟨r₂', cost, absorbs, by simpa using ready₂, budget₂⟩

theorem LoopFollows.seq {p q : ReadM (List Statement × Trace)}
    (first : Runs p r (fun x r₁ events => (r.stream.Ahead → r₁.stream.Ahead) ∧
      LoopFollows M past before r x r₁ events) ⊤)
    (second : ∀ (x : List Statement × Trace) r₁ events, Runs q r₁ (fun y r₂ more => MetInOrder True r₁ y.2 r₂ ∧
      LoopFollows M (past ++ x.2) (before ++ openedPaths events) r₁ y r₂ more) ⊤) :
    Runs (p >>= fun x => q >>= fun y => pure (x.1 ++ y.1, x.2 ++ y.2)) r (LoopFollows M past before r) ⊤ := by
  refine first.bind fun x r₁ events ⟨ahead₁, follows₁⟩ =>
    (second x r₁ events).bind fun y r₂ more ⟨order, follows₂⟩ => Runs.ofPure ?_
  intro r' ready later split cont within
  simp only [openedPathsAppend, List.append_nil, ← List.append_assoc] at within ⊢
  have cont₁ : Continues (y.2 ++ later) r₁.stream.upcoming :=
    order.continues trivial (ahead₁ ready.ahead) later cont
  obtain ⟨r₁', c₁, absorbs₁, ready₁, budget₁⟩ :=
    follows₁ r' ready (y.2 ++ later) (by rw [split]; simp) cont₁ (List.prefix_append _ _ |>.trans within)
  obtain ⟨r₂', c₂, absorbs₂, ready₂, budget₂⟩ :=
    follows₂ r₁' ready₁ later (by rw [split]; simp) cont within
  refine ⟨r₂', c₁ + c₂, absorbs₁.trans absorbs₂, by simpa using ready₂, ?_⟩
  omega

theorem StatementFollows.seq {u : String} {p q : ReadM (List Statement × Trace)}
    (first : Runs p r (fun x r₁ events => ((isInclude u = false → r.stream.Ahead) → r₁.stream.Ahead) ∧
      StatementFollows M past before u r x r₁ events) ⊤)
    (second : ∀ (x : List Statement × Trace) r₁ events, Runs q r₁ (fun y r₂ more => MetInOrder True r₁ y.2 r₂ ∧
      LoopFollows M (past ++ x.2) (before ++ openedPaths events) r₁ y r₂ more) ⊤) :
    Runs (p >>= fun x => q >>= fun y => pure (x.1 ++ y.1, x.2 ++ y.2)) r
      (StatementFollows M past before u r) ⊤ := by
  refine first.bind fun x r₁ events ⟨ahead₁, follows₁⟩ =>
    (second x r₁ events).bind fun y r₂ more ⟨order, follows₂⟩ => Runs.ofPure ?_
  intro r'₀ r' read after place later split cont within
  simp only [openedPathsAppend, List.append_nil, ← List.append_assoc] at within ⊢
  have ahead : r₁.stream.Ahead := ahead₁ fun plain => by
    rw [After, if_neg (by simp [plain])] at after
    exact after.ahead
  have cont₁ : Continues (y.2 ++ later) r₁.stream.upcoming := order.continues trivial ahead later cont
  obtain ⟨r₁', c₁, absorbs₁, ready₁, budget₁⟩ :=
    follows₁ r'₀ r' read after place (y.2 ++ later) (by rw [split]; simp) cont₁
      (List.prefix_append _ _ |>.trans within)
  obtain ⟨r₂', c₂, absorbs₂, ready₂, budget₂⟩ :=
    follows₂ r₁' ready₁ later (by rw [split]; simp) cont within
  refine ⟨r₂', c₁ + c₂, absorbs₁.trans absorbs₂, by simpa using ready₂, ?_⟩
  omega

end Mirror

end Parse

end Maketree
