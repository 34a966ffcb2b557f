import Maketree.Expansion
import Maketree.LineStream
import Maketree.Proofs.OpenFiles
/-! The line stream reads the expansion: a client that includes right after every read that waits
reads exactly the lines, locations and end of the expansion. -/
namespace Maketree

open Journal Expansion

namespace LogicalLine

theorem expandFromSkip (n k : Nat) (lines : List String) :
    expandFrom n k lines = expandFrom (n + k) 0 (lines.drop k) := by
  induction lines generalizing n k with
  | nil => cases k <;> simp [expandFrom]
  | cons l rest ih =>
    cases k with
    | zero => rfl
    | succ k =>
      rw [expandFrom, ih]
      simp only [List.drop_succ_cons]
      congr 1
      omega

end LogicalLine

namespace Expansion

theorem spliceStep {files : FileSystem} {workDir : String} {client : List (Option Bool × String)}
    {defer : Option Bool} {path : String} {pending rest : Pending} {text : String} {place : Location}
    (first : next pending = some ((text, place), rest)) :
    splice files workDir ((defer, path) :: client) pending =
      (if defer.getD (isInclude text) then
          (fileLines files (Path.normalJoin workDir path)).map
            fun lines => (Path.normalJoin workDir path, lines) :: rest
        else some rest).bind
        fun pending => (splice files workDir client pending).map
          fun (lines, done) => ((text, place) :: lines, done) := by
  simp only [splice, first, Option.bind_eq_bind, Option.pure_def]
  by_cases waits : defer.getD (isInclude text) = true
  · simp only [waits, if_true]
    rcases fileLines files (Path.normalJoin workDir path) with _ | lines
    · rfl
    · simp only [Option.map_some, Option.bind_some]
      rcases splice files workDir client ((Path.normalJoin workDir path, lines) :: rest)
        with _ | ⟨lines, done⟩ <;> rfl
  · simp only [waits, Bool.false_eq_true, if_false, Option.bind_some]
    rcases splice files workDir client rest with _ | ⟨lines, done⟩ <;> rfl

end Expansion

namespace FileSystem

theorem walkListed {fs : FileSystem} {here comps : List String} {content : List UInt8}
    (found : fs.walk here comps = .ok (.file content)) : ∃ key, (key, content) ∈ fs.files := by
  induction comps generalizing here with
  | nil => simp [walk] at found
  | cons c rest ih =>
    rw [walk] at found
    split at found
    · exact ih found
    split at found
    · exact ih found
    split at found
    · simp at found
    split at found
    · simp at found
    · exact ih found
    · rename_i content' entry
      split at found
      · simp only [Except.ok.injEq, Entry.file.injEq] at found
        subst found
        simp only [entryAt] at entry
        split at entry
        · simp at entry
        · simp only [Option.map_eq_some_iff, Entry.file.injEq] at entry
          obtain ⟨c', lookup, rfl⟩ := entry
          obtain ⟨l₁, l₂, split, -⟩ := List.lookup_eq_some_iff.mp lookup
          exact ⟨keyOf (here ++ [c]), by simp [split]⟩
      · simp at found

theorem readListed {fs : FileSystem} {path : String} {bytes : List UInt8}
    (read : fs.read path = .ok bytes) : ∃ key, (key, bytes) ∈ fs.files := by
  unfold FileSystem.read lookup at read
  split at read
  · rename_i found
    split at found
    · simp at found
    split at found
    · simp at found
    split at found
    · simp at found
    simp only [Except.ok.injEq] at read
    subst read
    exact walkListed found
  · simp at read
  · simp at read

end FileSystem

namespace Frame

def logical (f : Frame) : List (String × Nat) := LogicalLine.expand f.lineNo f.pending

def view (f : Frame) : String × List (String × Nat) := (f.path, f.logical)

@[simp] theorem viewOfSource (path : String) (src : Source) :
    (ofSource path src).view = (path, LogicalLine.expand 0 src.lines) := rfl

theorem isCommentSame : isComment = LogicalLine.isComment := rfl

theorem continuesSame : continues = LogicalLine.continues := rfl

theorem dropLastCharSame : dropLastChar = LogicalLine.dropLast := rfl

theorem pastEndLogs (path : String) (failure : Option Text.Utf8.Failure) (n : Nat) :
    LogsOrStops (failure ≠ none) (pastEnd path failure n) (.ok ()) [] := by
  cases failure with
  | none => exact .inl (logsPure ())
  | some fault => exact .inr ⟨by simp, _, [], logsThrow _⟩

theorem continuationLogs (path : String) (failure : Option Text.Utf8.Failure) {lines : List String}
    {text : String} {k : Nat} (spec : LogicalLine.continuation lines = (text, k)) (base : String)
    (n : Nat) :
    LogsOrStops (failure ≠ none) (continuation path failure base n lines)
      (.ok (base ++ text, n + k, lines.drop k)) [] := by
  induction lines generalizing base n text k with
  | nil =>
    simp only [LogicalLine.continuation, Prod.mk.injEq] at spec
    obtain ⟨rfl, rfl⟩ := spec
    rw [continuation]
    refine (pastEndLogs path failure n).andThen ?_
    simpa using logsPure (base, n, ([] : List String))
  | cons l rest ih =>
    simp only [LogicalLine.continuation] at spec
    rw [continuation, isCommentSame, continuesSame, dropLastCharSame]
    by_cases blank : Text.isBlankText l
    · simp only [blank, if_true, Prod.mk.injEq] at spec ⊢
      obtain ⟨rfl, rfl⟩ := spec
      exact .inl (by simpa using logsPure (base, n + 1, rest))
    simp only [blank, Bool.false_eq_true, if_false] at spec ⊢
    rcases more : LogicalLine.continuation rest with ⟨t, j⟩
    rw [more] at spec
    by_cases comment : LogicalLine.isComment l
    · simp only [comment, if_true, Prod.mk.injEq] at spec ⊢
      obtain ⟨rfl, rfl⟩ := spec
      refine (LogsOrStops.bind (.inl (logsNote _)) ?_)
      simpa [Nat.add_assoc, Nat.add_comm 1 j] using ih more base (n + 1)
    simp only [comment, Bool.false_eq_true, if_false] at spec ⊢
    by_cases continued : LogicalLine.continues l
    · simp only [continued, if_true, Prod.mk.injEq] at spec ⊢
      obtain ⟨rfl, rfl⟩ := spec
      refine (ih more (LogicalLine.dropLast l) (n + 1)).andThen ?_
      simpa [Nat.add_assoc, Nat.add_comm 1 j] using
        logsPure (base ++ Text.trim (LogicalLine.dropLast l ++ t), n + 1 + j, rest.drop j)
    simp only [continued, Bool.false_eq_true, if_false, Prod.mk.injEq] at spec ⊢
    obtain ⟨rfl, rfl⟩ := spec
    exact .inl (by simpa using logsPure (base ++ Text.trim l, n + 1, rest))

theorem logicalFromEnded (path : String) (failure : Option Text.Utf8.Failure) {n : Nat}
    {lines : List String} (ended : LogicalLine.expandFrom n 0 lines = []) :
    LogsOrStops (failure ≠ none) (logicalFrom path failure n lines) (.ok none) [] := by
  induction lines generalizing n with
  | nil =>
    rw [logicalFrom]
    exact (pastEndLogs path failure n).andThen (logsPure none)
  | cons l rest ih =>
    rw [logicalFrom, continuesSame]
    by_cases blank : Text.isBlankText l
    · simp only [LogicalLine.expandFrom, blank, if_true] at ended ⊢
      exact ih ended
    by_cases continued : LogicalLine.continues l
    · simp [LogicalLine.expandFrom, blank, continued] at ended
    · simp [LogicalLine.expandFrom, blank, continued] at ended

theorem logicalFromNext (path : String) (failure : Option Text.Utf8.Failure) {n : Nat}
    {lines : List String} {text : String} {start : Nat} {rest : List (String × Nat)}
    (first : LogicalLine.expandFrom n 0 lines = (text, start) :: rest) :
    ∃ m left, LogicalLine.expandFrom m 0 left = rest ∧
      LogsOrStops (failure ≠ none) (logicalFrom path failure n lines)
        (.ok (some (text, start, m, left))) [] := by
  induction lines generalizing n with
  | nil => simp [LogicalLine.expandFrom] at first
  | cons l more ih =>
    rw [logicalFrom, continuesSame, dropLastCharSame]
    by_cases blank : Text.isBlankText l
    · simp only [LogicalLine.expandFrom, blank, if_true] at first ⊢
      exact ih first
    simp only [LogicalLine.expandFrom, blank, Bool.false_eq_true, if_false] at first ⊢
    by_cases continued : LogicalLine.continues l
    -- the lines that the continuation took in are the ones the expansion skips
    · rcases joined : LogicalLine.continuation more with ⟨t, k⟩
      simp only [continued, if_true, joined, List.cons.injEq, Prod.mk.injEq] at first ⊢
      obtain ⟨⟨rfl, rfl⟩, rfl⟩ := first
      refine ⟨n + 1 + k, more.drop k, (LogicalLine.expandFromSkip (n + 1) k more).symm, ?_⟩
      exact (continuationLogs path failure joined (LogicalLine.dropLast l) (n + 1)).andThen
        (logsPure _)
    · simp only [continued, Bool.false_eq_true, if_false, List.cons.injEq, Prod.mk.injEq] at first ⊢
      obtain ⟨⟨rfl, rfl⟩, rfl⟩ := first
      exact ⟨n + 1, more, rfl, .inl (logsPure _)⟩

theorem nextLogicalEnded {f : Frame} (ended : f.logical = []) :
    LogsOrStops (f.failure ≠ none) f.nextLogical (.ok none) [] := by
  rw [nextLogical]
  exact (logicalFromEnded f.path f.failure ended).andThen (logsPure none)

theorem nextLogicalNext {f : Frame} {text : String} {start : Nat} {rest : List (String × Nat)}
    (first : f.logical = (text, start) :: rest) :
    ∃ f', f'.view = (f.path, rest) ∧ f'.failure = f.failure ∧
      LogsOrStops (f.failure ≠ none) f.nextLogical (.ok (some (text, ⟨f.path, start⟩, f'))) [] := by
  obtain ⟨m, left, tail, reads⟩ := logicalFromNext f.path f.failure first
  refine ⟨{ f with lineNo := m, pending := left }, by simp [view, logical, LogicalLine.expand, tail],
    rfl, ?_⟩
  rw [nextLogical]
  exact reads.andThen (logsPure _)

end Frame

namespace LineStream

def Faulty (frames : List Frame) : Prop := ∃ f ∈ frames, f.failure ≠ none

theorem faultyCons {f : Frame} {frames : List Frame} (fault : f.failure ≠ none ∨ Faulty frames) :
    Faulty (f :: frames) := by
  rcases fault with fault | ⟨g, mem, fault⟩
  · exact ⟨f, List.mem_cons_self .., fault⟩
  · exact ⟨g, List.mem_cons_of_mem _ mem, fault⟩

theorem nextOfEnded {frames : List Frame} (ended : Expansion.next (frames.map Frame.view) = none) :
    LogsOrStops (Faulty frames) (nextOf frames) (.ok none)
      ((frames.map Frame.path).map Notice.closedFile) := by
  induction frames with
  | nil => exact .inl (logsPure none)
  | cons f rest ih =>
    rcases lines : f.logical with _ | ⟨⟨text, start⟩, more⟩
    · simp only [List.map_cons, Frame.view, lines, Expansion.next] at ended
      rw [nextOf]
      refine ((Frame.nextLogicalEnded lines).mono fun fault => faultyCons (.inl fault)).bind ?_
      exact (LogsOrStops.bind (.inl (logsNote _)) (ih ended)).mono fun fault => faultyCons (.inr fault)
    · simp [Frame.view, lines, Expansion.next] at ended

theorem nextOfNext {frames : List Frame} {text : String} {loc : Location} {rest : Pending}
    (first : Expansion.next (frames.map Frame.view) = some ((text, loc), rest)) :
    ∃ frames' closed, frames'.map Frame.view = rest ∧
      frames.map Frame.path = closed ++ frames'.map Frame.path ∧
      frames'.map Frame.failure <:+ frames.map Frame.failure ∧
      LogsOrStops (Faulty frames) (nextOf frames) (.ok (some (text, loc, frames')))
        (closed.map Notice.closedFile) := by
  induction frames with
  | nil => simp [Expansion.next] at first
  | cons f others ih =>
    rcases lines : f.logical with _ | ⟨⟨t, start⟩, more⟩
    · simp only [List.map_cons, Frame.view, lines, Expansion.next] at first
      obtain ⟨frames', closed, views, paths, failures, reads⟩ := ih first
      refine ⟨frames', f.path :: closed, views, by simp [paths], failures.trans (by simp), ?_⟩
      rw [nextOf]
      refine ((Frame.nextLogicalEnded lines).mono fun fault => faultyCons (.inl fault)).bind ?_
      exact (LogsOrStops.bind (.inl (logsNote _)) reads).mono fun fault => faultyCons (.inr fault)
    · simp only [List.map_cons, Frame.view, lines, Expansion.next, Option.some.injEq,
        Prod.mk.injEq] at first
      obtain ⟨⟨rfl, rfl⟩, rfl⟩ := first
      obtain ⟨f', view, failure, reads⟩ := Frame.nextLogicalNext lines
      have samePath : f'.path = f.path := congrArg Prod.fst view
      refine ⟨f' :: others, [], by simp only [List.map_cons, view], by simp [samePath],
        by simp [failure], ?_⟩
      rw [nextOf]
      exact (reads.mono fun fault => faultyCons (.inl fault)).andThen (logsPure _)

/-- The stream has read ahead from `pending`: either nothing is pending and the input is used up, or
the lookahead is the first line pending, at its location, and the files hold the rest. -/
inductive Tracks (s : LineStream) (pending : Pending) : Prop
  | ended (none : Expansion.next pending = none) (eof : s.eof = true) (empty : s.next = "")
  | ahead {text : String} {loc : Location} {rest : Pending}
      (first : Expansion.next pending = some ((text, loc), rest)) (eof : s.eof = false)
      (line : s.next = text) (lineLoc : s.nextLoc = some loc) (frames : s.frames.map Frame.view = rest)

structure ReadAhead (s s' : LineStream) (closed : List String) : Prop where
  paths : s.frames.map Frame.path = closed ++ s'.frames.map Frame.path
  failures : s'.frames.map Frame.failure <:+ s.frames.map Frame.failure
  tracks : Tracks s' (s.frames.map Frame.view)
  files : s'.files = s.files
  workDir : s'.workDir = s.workDir
  loc : s'.loc = s.loc

theorem advanceReads (s : LineStream) :
    ∃ s' closed, ReadAhead s s' closed ∧
      LogsOrStops (Faulty s.frames) s.advance (.ok s') (closed.map Notice.closedFile) := by
  rcases first : Expansion.next (s.frames.map Frame.view) with _ | ⟨⟨text, loc⟩, rest⟩
  · refine ⟨{ s with frames := [], eof := true, next := "", nextLoc := none }, s.frames.map Frame.path,
      ⟨by simp, by simp, .ended first rfl rfl, rfl, rfl, rfl⟩, ?_⟩
    rw [advance]
    exact (nextOfEnded first).andThen (logsPure _)
  · obtain ⟨frames, closed, views, paths, failures, reads⟩ := nextOfNext first
    refine ⟨{ s with frames := frames, eof := false, next := text, nextLoc := some loc }, closed,
      ⟨paths, failures, .ahead first rfl rfl rfl views, rfl, rfl, rfl⟩, ?_⟩
    rw [advance]
    exact reads.andThen (logsPure _)

theorem ReadAhead.sound {s s' : LineStream} {closed : List String} (ahead : ReadAhead s s' closed)
    (fine : ¬Faulty s.frames) : ¬Faulty s'.frames := by
  rintro ⟨f, mem, fault⟩
  obtain ⟨g, mem', same⟩ := List.mem_map.mp (ahead.failures.subset (List.mem_map_of_mem mem))
  exact fine ⟨g, mem', same ▸ fault⟩

theorem readLineWaits {s : LineStream} {defer : Option Bool} {text : String} {loc : Location}
    (line : s.next = text) (lineLoc : s.nextLoc = some loc) (waits : defer.getD (isInclude text) = true) :
    Logs (s.readLine defer) (.ok (text, { s with loc := some loc })) [] := by
  rw [readLine]
  simp only [line, lineLoc, waits, if_true]
  exact logsPure _

theorem readLineMoves {s : LineStream} {pending rest : Pending} {defer : Option Bool} {text : String}
    {place : Location} (tracks : Tracks s pending) (first : Expansion.next pending = some ((text, place), rest))
    (moves : defer.getD (isInclude text) = false) :
    ∃ s' closed, s.frames.map Frame.view = rest ∧ ReadAhead { s with loc := some place } s' closed ∧
      LogsOrStops (Faulty s.frames) (s.readLine defer) (.ok (text, s')) (closed.map Notice.closedFile) := by
  cases tracks with
  | ended none _ _ => simp [none] at first
  | ahead first' _ line lineLoc frames =>
    rw [first'] at first
    simp only [Option.some.injEq, Prod.mk.injEq] at first
    obtain ⟨⟨sameText, samePlace⟩, sameRest⟩ := first
    rw [sameText] at line
    rw [samePlace] at lineLoc
    rw [sameRest] at frames
    obtain ⟨s', closed, ahead, reads⟩ := advanceReads { s with loc := some place }
    refine ⟨s', closed, frames, ahead, ?_⟩
    rw [readLine]
    simp only [line, lineLoc, moves, Bool.false_eq_true, if_false]
    exact reads.andThen (logsPure _)

theorem pushOpens {s : LineStream} {path : String} {bytes : List UInt8} (read : s.files.read path = .ok bytes) :
    Logs (s.push path) (.ok { s with frames := Frame.ofSource path (Source.ofBytes bytes) :: s.frames })
      [.openedFile path] := by
  rw [push, read]
  exact logsThen (logsNote _) (logsPure _)

theorem pushFails {s : LineStream} {path : String} {why : OpenFailure}
    (read : s.files.read path = .error why) :
    Logs (s.push path) (.error (if why = .nulInPath then .unhandled path .nulInPath
      else .error ⟨.cannotOpen path why, s.loc⟩)) [] := by
  rw [push, read]
  cases why <;> exact logsThrow _

theorem includeOpens {s : LineStream} {path : String} {bytes : List UInt8}
    (read : s.files.read (Path.normalJoin s.workDir path) = .ok bytes) :
    ∃ s' closed,
      ReadAhead { s with frames := Frame.ofSource (Path.normalJoin s.workDir path) (Source.ofBytes bytes) :: s.frames }
        s' closed ∧
      LogsOrStops (Faulty (Frame.ofSource (Path.normalJoin s.workDir path) (Source.ofBytes bytes) :: s.frames))
        (s.includeFile path) (.ok s')
        (.openedFile (Path.normalJoin s.workDir path) :: closed.map Notice.closedFile) := by
  obtain ⟨s', closed, ahead, reads⟩ := advanceReads
    { s with frames := Frame.ofSource (Path.normalJoin s.workDir path) (Source.ofBytes bytes) :: s.frames }
  exact ⟨s', closed, ahead, LogsOrStops.bind (.inl (pushOpens read)) reads⟩

theorem includeFails {s : LineStream} {path : String} {why : OpenFailure}
    (read : s.files.read (Path.normalJoin s.workDir path) = .error why) :
    Logs (s.includeFile path) (.error (if why = .nulInPath then .unhandled (Path.normalJoin s.workDir path)
      .nulInPath else .error ⟨.cannotOpen (Path.normalJoin s.workDir path) why, s.loc⟩)) [] :=
  logsBindError (pushFails read)

def serve : List (Option Bool × String) → LineStream →
    Journal (List (String × Option Location) × LineStream)
  | [], s => pure ([], s)
  | (defer, path) :: client, s =>
    if s.eof then pure ([], s)
    else do
      let (line, s) ← s.readLine defer
      let s' ← if defer.getD (isInclude line) then s.includeFile path else pure s
      let (lines, s'') ← serve client s'
      pure ((line, s.loc) :: lines, s'')

def Yields (run : Journal (List (String × Option Location) × LineStream)) :
    Option (List (String × Location) × Bool) → Prop
  | some (lines, done) =>
    ∃ s, Gives run (.ok (lines.map fun (text, place) => (text, some place), s)) ∧ s.eof = done
  | none => ∃ h, Gives run (.error h)

theorem yieldsAfter {start : Journal LineStream} {s : LineStream} {client : List (Option Bool × String)}
    {expansion : Option (List (String × Location) × Bool)} (opened : Gives start (.ok s))
    (yields : Yields (serve client s) expansion) : Yields (start >>= serve client) expansion := by
  rcases expansion with _ | ⟨lines, done⟩
  · obtain ⟨h, gives⟩ := yields
    exact ⟨h, givesBind opened gives⟩
  · obtain ⟨s', gives, eof⟩ := yields
    exact ⟨s', givesBind opened gives, eof⟩

theorem serveCons {defer : Option Bool} {path : String} {client : List (Option Bool × String)}
    {s : LineStream} (more : s.eof = false) :
    serve ((defer, path) :: client) s =
      s.readLine defer >>= fun x =>
        (if defer.getD (isInclude x.1) then x.2.includeFile path else pure x.2) >>= fun s' =>
          serve client s' >>= fun y => pure ((x.1, x.2.loc) :: y.1, y.2) := by
  rw [serve, if_neg (by simp [more])]
  refine bind_congr fun x => ?_
  obtain ⟨line, s1⟩ := x
  by_cases waits : defer.getD (isInclude line) = true <;> simp [waits]

section Entry
variable {defer : Option Bool} {path text : String} {client : List (Option Bool × String)}
  {s s1 : LineStream}

theorem yieldsLine {s2 : LineStream} {place : Location} {expansion : Option (List (String × Location) × Bool)}
    (more : s.eof = false) (reads : Gives (s.readLine defer) (.ok (text, s1))) (here : s1.loc = some place)
    (follows : Gives (if defer.getD (isInclude text) then s1.includeFile path else pure s1) (.ok s2))
    (rest : Yields (serve client s2) expansion) :
    Yields (serve ((defer, path) :: client) s)
      (expansion.map fun (lines, done) => ((text, place) :: lines, done)) := by
  rw [serveCons more]
  rcases expansion with _ | ⟨lines, done⟩
  · obtain ⟨h, fails⟩ := rest
    exact ⟨h, givesBind reads (givesBind follows (givesBindError fails))⟩
  · obtain ⟨s3, gives, eof3⟩ := rest
    refine ⟨s3, givesBind reads (givesBind follows (givesBind gives ?_)), eof3⟩
    simpa [here] using givesPure _

theorem yieldsStop {h : Halt} (more : s.eof = false) (reads : Gives (s.readLine defer) (.ok (text, s1)))
    (fails : Gives (if defer.getD (isInclude text) then s1.includeFile path else pure s1) (.error h)) :
    Yields (serve ((defer, path) :: client) s) none := by
  rw [serveCons more]
  exact ⟨h, givesBind reads (givesBindError fails)⟩

end Entry

theorem serveSplices (client : List (Option Bool × String)) {s : LineStream} {pending : Pending}
    (tracks : Tracks s pending) (sound : ¬Faulty s.frames)
    (utf8 : ∀ e ∈ s.files.files, (Source.ofBytes e.2).failure = none) :
    Yields (serve client s) (splice s.files s.workDir client pending) := by
  -- induction on the client's entries; `Tracks` is the invariant between two reads
  induction client generalizing s pending with
  | nil =>
    refine ⟨s, givesPure _, ?_⟩
    cases tracks with
    | ended none eof _ => simp [none, eof]
    | ahead first eof => simp [first, eof]
  | cons entry client ih =>
    obtain ⟨defer, path⟩ := entry
    cases tracks with
    | ended none eof _ =>
      simp only [splice, none]
      refine ⟨s, ?_, eof⟩
      simpa [serve, eof] using givesPure (([] : List (String × Option Location)), s)
    | @ahead text place rest first eof line lineLoc frames =>
      -- a read that waits leaves the lookahead stale until the include reads the new file's first line
      by_cases waits : defer.getD (isInclude text) = true
      · rcases read : s.files.read (Path.normalJoin s.workDir path) with why | bytes
        · have missing : fileLines s.files (Path.normalJoin s.workDir path) = none := by
            simp [fileLines, read]
          rw [spliceStep first]
          simp only [waits, if_true, missing, Option.map_none, Option.bind_none]
          have fails := (includeFails (s := { s with loc := some place }) read).gives
          exact yieldsStop eof (readLineWaits line lineLoc waits).gives (by simpa [waits] using fails)
        · have utf8' : (Source.ofBytes bytes).failure = none := by
            obtain ⟨key, mem⟩ := FileSystem.readListed read
            exact utf8 _ mem
          have found : fileLines s.files (Path.normalJoin s.workDir path) =
              some (LogicalLine.expand 0 (Source.ofBytes bytes).lines) := by simp [fileLines, read]
          obtain ⟨s2, closed, ahead, reads⟩ := includeOpens (s := { s with loc := some place }) read
          have fine : ¬Faulty (Frame.ofSource (Path.normalJoin s.workDir path) (Source.ofBytes bytes) ::
              s.frames) := by
            rintro ⟨f, mem, fault⟩
            rcases List.mem_cons.mp mem with rfl | mem
            · exact fault utf8'
            · exact sound ⟨f, mem, fault⟩
          have opens := (reads.logs fine).gives
          have tracks2 := ahead.tracks
          simp only [List.map_cons, Frame.viewOfSource, frames] at tracks2
          have more := ih tracks2 (ahead.sound fine) (by simpa [ahead.files] using utf8)
          simp only [ahead.files, ahead.workDir] at more
          rw [spliceStep first]
          simp only [waits, if_true, found, Option.map_some, Option.bind_some]
          exact yieldsLine eof (readLineWaits line lineLoc waits).gives rfl (by simpa [waits] using opens) more
      · have moves : defer.getD (isInclude text) = false := by simpa using waits
        obtain ⟨s1, closed, -, ahead, reads⟩ :=
          readLineMoves (.ahead first eof line lineLoc frames) first moves
        have tracks1 := ahead.tracks
        simp only [frames] at tracks1
        have more := ih tracks1 (ahead.sound sound) (by simpa [ahead.files] using utf8)
        simp only [ahead.files, ahead.workDir] at more
        rw [spliceStep first]
        simp only [moves, Bool.false_eq_true, if_false, Option.bind_some]
        exact yieldsLine eof (reads.logs sound).gives ahead.loc (by simpa [moves] using givesPure s1) more

theorem clientReadsExpansion (files : FileSystem) (path : String) (workDir : Option String)
    (client : List (Option Bool × String))
    (utf8 : ∀ e ∈ files.files, (Source.ofBytes e.2).failure = none) :
    (∀ text, Yields (ofText files text path workDir >>= serve client)
      (splice files (workDir.getD (defaultWorkDir files path)) client
        [(path, LogicalLine.expand 0 (Source.ofText text).lines)])) ∧
    (∀ bytes, files.read path = .ok bytes → Yields (openFile files path workDir >>= serve client)
      (splice files (workDir.getD (defaultWorkDir files path)) client
        [(path, LogicalLine.expand 0 (Source.ofBytes bytes).lines)])) := by
  constructor
  · intro text
    let root := Frame.ofSource path (Source.ofText text)
    have fine : ¬Faulty [root] := by simp [Faulty, root, Frame.ofSource, Source.ofText]
    obtain ⟨s, closed, ahead, reads⟩ :=
      advanceReads { empty files (workDir.getD (defaultWorkDir files path)) with frames := [root] }
    have tracks := ahead.tracks
    simp only [List.map_cons, List.map_nil, root, Frame.viewOfSource] at tracks
    have yields := serveSplices client tracks (ahead.sound fine) (by simpa [ahead.files, empty] using utf8)
    simp only [ahead.files, ahead.workDir, empty] at yields
    exact yieldsAfter (reads.logs fine).gives yields
  · intro bytes read
    have utf8' : (Source.ofBytes bytes).failure = none := by
      obtain ⟨key, mem⟩ := FileSystem.readListed read
      exact utf8 _ mem
    let start := empty files (workDir.getD (defaultWorkDir files path))
    have fine : ¬Faulty (Frame.ofSource path (Source.ofBytes bytes) :: start.frames) := by
      simpa [Faulty, start, empty, Frame.ofSource] using utf8'
    obtain ⟨s, closed, ahead, reads⟩ :=
      advanceReads { start with frames := Frame.ofSource path (Source.ofBytes bytes) :: start.frames }
    have tracks := ahead.tracks
    simp only [List.map_cons, Frame.viewOfSource, start, empty, List.map_nil] at tracks
    have yields := serveSplices client tracks (ahead.sound fine)
      (by simpa [ahead.files, start, empty] using utf8)
    simp only [ahead.files, ahead.workDir, start, empty] at yields
    exact yieldsAfter (givesBind (pushOpens (s := start) read).gives (reads.logs fine).gives) yields

set_option maxRecDepth 8192 in
theorem includeOrderingReads :
    (∀ e ∈ (⟨"/r", ["/r"], [("/r/common.mk", [0x79, 0x31, 0x0A, 0x0A, 0x79, 0x32, 0x0A])]⟩ : FileSystem).files,
      (Source.ofBytes e.2).failure = none) ∧
    Yields (ofText ⟨"/r", ["/r"], [("/r/common.mk", [0x79, 0x31, 0x0A, 0x0A, 0x79, 0x32, 0x0A])]⟩
        "x1\ninclude common.mk\nx2\n" "Makefile" (some "/r") >>=
      serve [(none, ""), (none, "common.mk"), (none, ""), (none, ""), (none, ""), (none, "")])
      (some ([("x1", ⟨"Makefile", 1⟩), ("include common.mk", ⟨"Makefile", 2⟩), ("y1", ⟨"/r/common.mk", 1⟩),
        ("y2", ⟨"/r/common.mk", 3⟩), ("x2", ⟨"Makefile", 3⟩)], true)) := by
  have utf8 : ∀ e ∈ (⟨"/r", ["/r"], [("/r/common.mk", [0x79, 0x31, 0x0A, 0x0A, 0x79, 0x32, 0x0A])]⟩ :
      FileSystem).files, (Source.ofBytes e.2).failure = none := by with_unfolding_all decide
  refine ⟨utf8, ?_⟩
  have reads := (clientReadsExpansion ⟨"/r", ["/r"], [("/r/common.mk", [0x79, 0x31, 0x0A, 0x0A, 0x79, 0x32, 0x0A])]⟩
    "Makefile" (some "/r") [(none, ""), (none, "common.mk"), (none, ""), (none, ""), (none, ""), (none, "")]
    utf8).1 "x1\ninclude common.mk\nx2\n"
  have expansion : splice ⟨"/r", ["/r"], [("/r/common.mk", [0x79, 0x31, 0x0A, 0x0A, 0x79, 0x32, 0x0A])]⟩ "/r"
      [(none, ""), (none, "common.mk"), (none, ""), (none, ""), (none, ""), (none, "")]
      [("Makefile", LogicalLine.expand 0 (Source.ofText "x1\ninclude common.mk\nx2\n").lines)] =
    some ([("x1", ⟨"Makefile", 1⟩), ("include common.mk", ⟨"Makefile", 2⟩), ("y1", ⟨"/r/common.mk", 1⟩),
      ("y2", ⟨"/r/common.mk", 3⟩), ("x2", ⟨"Makefile", 3⟩)], true) := by with_unfolding_all decide
  simpa [expansion] using reads

end LineStream

end Maketree
