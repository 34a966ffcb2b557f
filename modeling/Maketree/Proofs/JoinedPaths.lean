import Mathlib
import Maketree.Proofs.CargoDirectories
/-! Normalising after each join is normalising once after joining all, so a recipe's directory is
the root joined with its `cd` arguments. -/
namespace Maketree.Path

def pushPieces (rooted : Bool) (stack : List (List Char)) (cs : List Char) : List (List Char) :=
  (cs.splitOn '/').foldl (pushComponent rooted) stack

def reading (cs : List Char) : Nat × List (List Char) :=
  (leadingSlashes cs, pushPieces (leadingSlashes cs != 0) [] cs)

@[simp] theorem readingLead (cs : List Char) : (reading cs).1 = leadingSlashes cs := rfl

theorem normalizeCharsReading (cs : List Char) :
    normalizeChars cs = render (reading cs).1 (reading cs).2.reverse := rfl

theorem pushPiecesSlash (rooted : Bool) (stack : List (List Char)) (a b : List Char) :
    pushPieces rooted stack (a ++ '/' :: b) = pushPieces rooted (pushPieces rooted stack a) b := by
  rw [pushPieces, List.splitOn_append_cons_self, List.foldl_append]
  rfl

@[simp] theorem pushPiecesNil (rooted : Bool) (stack : List (List Char)) :
    pushPieces rooted stack [] = stack := by
  simp [pushPieces, List.splitOn_nil, pushComponent]

theorem readingNormalize (cs : List Char) : reading (normalizeChars cs) = reading cs := by
  have lead := leadingNormalize cs
  have comps := componentsNormalize cs
  simp only [components, lead] at comps
  simp only [reading, pushPieces, lead]
  rw [List.reverse_injective comps]

theorem normalizeOfReading {p q : String} (same : reading p.toList = reading q.toList) :
    normalize p = normalize q := by
  rw [normalize, normalize, normalizeCharsReading, normalizeCharsReading, same]

theorem leadingRelative {cs : List Char} (relative : cs.head? ≠ some '/') : leadingSlashes cs = 0 := by
  unfold leadingSlashes
  split <;> simp_all

theorem joinText (a : String) {x : String} (relative : isAbsolute x = false) :
    (join a x).toList = if a.isEmpty || a.toList.getLast? == some '/' then a.toList ++ x.toList
      else a.toList ++ '/' :: x.toList := by
  unfold join
  rw [if_neg (by simp [relative])]
  split <;> simp [String.toList_append]

theorem joinReads (a : String) {x : String} (relative : isAbsolute x = false) :
    leadingSlashes (join a x).toList = leadingSlashes a.toList ∧
      ∀ rooted stack, pushPieces rooted stack (join a x).toList =
        pushPieces rooted (pushPieces rooted stack a.toList) x.toList := by
  have unled : ∀ tail, x.toList = '/' :: tail → False := fun tail same => by
    simp [isAbsolute, same] at relative
  by_cases empty : a.isEmpty = true
  · -- an empty directory adds nothing: the path stands alone, and it is relative
    have none : a.toList = [] := by simpa [String.isEmpty_iff] using empty
    have text : (join a x).toList = x.toList := by
      rw [joinText a relative, if_pos (by simp [empty]), none, List.nil_append]
    rw [text, none, leadingRelative (by simpa [isAbsolute] using relative)]
    exact ⟨rfl, fun _ _ => by rw [pushPiecesNil]⟩
  by_cases ends : a.toList.getLast? = some '/'
  · -- the directory's own slash separates it from the path
    obtain ⟨front, whole⟩ := List.getLast?_eq_some_iff.mp ends
    have text : (join a x).toList = front ++ '/' :: x.toList := by
      rw [joinText a relative, if_pos (by simp [ends]), whole]
      simp
    rw [text, whole]
    refine ⟨?_, fun rooted stack => ?_⟩
    · rw [leadingSlashesRun, leadingSlashesRun,
        show front ++ '/' :: x.toList = (front ++ ['/']) ++ x.toList by simp, slashRunAppend (.inr unled)]
    · rw [pushPiecesSlash, pushPiecesSlash, pushPiecesNil]
  · have text : (join a x).toList = a.toList ++ '/' :: x.toList := by
      rw [joinText a relative, if_neg (by simp [empty, ends])]
    rw [text]
    refine ⟨?_, fun rooted stack => pushPiecesSlash rooted stack _ _⟩
    rw [leadingSlashesRun, leadingSlashesRun, slashRunAppend (.inl fun allSlashes => ends ?_)]
    -- a directory made of slashes alone would end with one
    have same := (List.takeWhile_prefix (· == '/')).eq_of_length allSlashes
    obtain ⟨c, last⟩ := Option.ne_none_iff_exists'.mp (by simpa [String.isEmpty_iff] using empty :
      a.toList.getLast? ≠ none)
    have inRun : c ∈ a.toList.takeWhile (· == '/') := by
      rw [same]
      exact List.mem_of_getLast? last
    have slash := List.mem_takeWhile_imp inRun
    rw [last, eq_of_beq slash]

theorem joinRelative {b c : String} (relB : isAbsolute b = false) (relC : isAbsolute c = false) :
    isAbsolute (join b c) = false := by
  rw [isAbsolute, joinText b relC]
  by_cases empty : b.isEmpty = true
  · have none : b.toList = [] := by simpa [String.isEmpty_iff] using empty
    simpa [empty, none, isAbsolute] using relC
  · obtain ⟨d, ds, whole⟩ := List.exists_cons_of_ne_nil (by simpa [String.isEmpty_iff] using empty :
      b.toList ≠ [])
    have notSlash : d ≠ '/' := fun same => by simp [isAbsolute, whole, same] at relB
    split <;> simp [whole, notSlash]

theorem joinAbsolute (b : String) {c : String} (relC : isAbsolute c = false) (absB : isAbsolute b = true) :
    isAbsolute (join b c) = true := by
  obtain ⟨tail, whole⟩ := List.head?_eq_some_iff.mp (by simpa [isAbsolute] using absB)
  have full : b.isEmpty = false := by simp [← String.toList_inj, whole]
  rw [isAbsolute, joinText b relC]
  split <;> simp [whole]

theorem readingJoin (a : String) {x : String} (relative : isAbsolute x = false) :
    reading (join a x).toList =
      (leadingSlashes a.toList, pushPieces (leadingSlashes a.toList != 0) (reading a.toList).2 x.toList) := by
  obtain ⟨lead, pieces⟩ := joinReads a relative
  simp only [reading, lead, pieces]

@[simp] theorem joinOfAbsolute (a : String) {x : String} (absolute : isAbsolute x = true) : join a x = x := by
  simp [join, absolute]

theorem normalJoinJoin (a b c : String) : normalJoin (normalJoin a b) c = normalJoin a (join b c) := by
  cases relC : isAbsolute c
  case true => simp only [normalJoin, joinOfAbsolute _ relC]
  case false =>
    apply normalizeOfReading
    have first : reading (normalJoin a b).toList = reading (join a b).toList := by
      rw [normalJoin, normalize, String.toList_ofList, readingNormalize]
    have firstLead := congrArg Prod.fst first
    rw [readingLead, readingLead] at firstLead
    rw [readingJoin _ relC, firstLead, first]
    cases relB : isAbsolute b
    case true =>
      rw [joinOfAbsolute a relB, joinOfAbsolute a (joinAbsolute b relC relB), readingJoin _ relC]
    case false =>
      rw [readingJoin _ (joinRelative relB relC), readingJoin _ relB, (joinReads b relC).2,
        (joinReads a relB).1]

theorem foldNormalJoin (start d : String) (ds : List String) :
    ds.foldl normalJoin (normalJoin start d) = normalJoin start (ds.foldl join d) := by
  induction ds generalizing d with
  | nil => rfl
  | cons e rest ih => rw [List.foldl_cons, normalJoinJoin, ih, List.foldl_cons]

end Maketree.Path

namespace Maketree.Parse

open Text

def cdMoves (isDir : String → Bool) : String → List String → List String
  | _, [] => []
  | cwd, text :: texts =>
    match words (trim text) with
    | "cd" :: dir :: _ =>
      if isDir (Path.normalJoin cwd dir) then dir :: cdMoves isDir (Path.normalJoin cwd dir) texts
      else cdMoves isDir cwd texts
    | _ => cdMoves isDir cwd texts

section Moves

variable {isDir : String → Bool} {cwd text dir : String} {more texts : List String}

theorem cdStepCd (cd : words (trim text) = "cd" :: dir :: more) :
    cdStep isDir cwd text = if isDir (Path.normalJoin cwd dir) then Path.normalJoin cwd dir else cwd := by
  unfold cdStep
  split
  · rename_i same
    rw [cd, List.cons.injEq, List.cons.injEq] at same
    obtain ⟨-, rfl, rfl⟩ := same
    rfl
  · rename_i notCd
    exact absurd cd (notCd dir more)

theorem cdMovesCd (cd : words (trim text) = "cd" :: dir :: more) :
    cdMoves isDir cwd (text :: texts) = if isDir (Path.normalJoin cwd dir) then
      dir :: cdMoves isDir (Path.normalJoin cwd dir) texts else cdMoves isDir cwd texts := by
  rw [cdMoves]
  split
  · rename_i same
    rw [cd, List.cons.injEq, List.cons.injEq] at same
    obtain ⟨-, rfl, rfl⟩ := same
    rfl
  · rename_i notCd
    exact absurd cd (notCd dir more)

theorem cdStepOther (notCd : ∀ dir more, words (trim text) ≠ "cd" :: dir :: more) :
    cdStep isDir cwd text = cwd := by
  unfold cdStep
  split
  · rename_i dir more same
    exact absurd same (notCd dir more)
  · rfl

theorem cdMovesOther (notCd : ∀ dir more, words (trim text) ≠ "cd" :: dir :: more) :
    cdMoves isDir cwd (text :: texts) = cdMoves isDir cwd texts := by
  rw [cdMoves]
  split
  · rename_i dir more same
    exact absurd same (notCd dir more)
  · rfl

end Moves

theorem cdStepsFold (isDir : String → Bool) (cwd : String) (texts : List String) :
    texts.foldl (cdStep isDir) cwd = (cdMoves isDir cwd texts).foldl Path.normalJoin cwd := by
  induction texts generalizing cwd with
  | nil => simp only [List.foldl_nil, cdMoves]
  | cons text rest ih =>
    rw [List.foldl_cons]
    by_cases cd : ∃ dir more, words (trim text) = "cd" :: dir :: more
    · obtain ⟨dir, more, cd⟩ := cd
      rw [cdStepCd cd, cdMovesCd cd]
      split
      · rw [ih, List.foldl_cons]
      · exact ih cwd
    · have notCd : ∀ dir more, words (trim text) ≠ "cd" :: dir :: more :=
        fun dir more same => cd ⟨dir, more, same⟩
      rw [cdMovesOther notCd, cdStepOther notCd]
      exact ih cwd

theorem recipeDirectoryJoins :
    (∀ a b c, Path.normalJoin (Path.normalJoin a b) c = Path.normalJoin a (Path.join b c)) ∧
    (∀ a b, Path.normalize (Path.normalJoin a b) = Path.normalJoin a b) ∧
    ∀ (isDir : String → Bool) (root : String) (texts : List String) (d : String) (ds : List String),
      cdMoves isDir root texts = d :: ds →
        texts.foldl (cdStep isDir) root = Path.normalJoin root (ds.foldl Path.join d) ∧
        ∀ manifest, Path.normalJoin (texts.foldl (cdStep isDir) root) manifest =
          Path.normalJoin root ((ds ++ [manifest]).foldl Path.join d) := by
  refine ⟨Path.normalJoinJoin, Path.normalizeNormalJoin, fun isDir root texts d ds moved => ?_⟩
  have cursor : texts.foldl (cdStep isDir) root = Path.normalJoin root (ds.foldl Path.join d) := by
    rw [cdStepsFold, moved, List.foldl_cons, Path.foldNormalJoin]
  refine ⟨cursor, fun manifest => ?_⟩
  rw [cursor, Path.normalJoinJoin, List.foldl_append, List.foldl_cons, List.foldl_nil]

theorem recipeDirectoryJoinsTwice :
    cdMoves (fun p => p == "/w/a" || p == "/w/b") "/w" ["cd a", "echo hi", "cd c", "cd ../b"] =
        ["a", "../b"] ∧
      ["cd a", "echo hi", "cd c", "cd ../b"].foldl (cdStep fun p => p == "/w/a" || p == "/w/b") "/w" =
        Path.normalJoin "/w" (["../b"].foldl Path.join "a") ∧
      ∀ manifest, Path.normalJoin (["cd a", "echo hi", "cd c", "cd ../b"].foldl
          (cdStep fun p => p == "/w/a" || p == "/w/b") "/w") manifest =
        Path.normalJoin "/w" ((["../b"] ++ [manifest]).foldl Path.join "a") := by
  have moved : cdMoves (fun p => p == "/w/a" || p == "/w/b") "/w" ["cd a", "echo hi", "cd c", "cd ../b"] =
      ["a", "../b"] := by decide
  exact ⟨moved, recipeDirectoryJoins.2.2 _ _ _ _ _ moved⟩

end Maketree.Parse
