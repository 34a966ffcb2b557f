import Mathlib
import Maketree.FileSystem
import Maketree.Proofs.Journal
/-! Which makefiles are open, read off the log. -/
namespace Maketree

namespace FileSystem

def reach (fs : FileSystem) (here : List String) : List String → Option (List String)
  | [] => none
  | c :: rest =>
    if c = "" ∨ c = "." then fs.reach here rest
    else if c = ".." then fs.reach here.dropLast rest
    else match fs.entryAt (here ++ [c]) with
      | some .directory => fs.reach (here ++ [c]) rest
      | some (.file _) => if rest.isEmpty then some (here ++ [c]) else none
      | none => none

def locate (fs : FileSystem) (p : String) : Option String :=
  (fs.reach [] (pieces (if Path.isAbsolute p then p else fs.cwd ++ "/" ++ p))).map keyOf

theorem walkReaches {fs : FileSystem} {here comps : List String} {content : List UInt8}
    (found : fs.walk here comps = .ok (.file content)) :
    ∃ key, (fs.reach here comps).map keyOf = some key ∧ (key, content) ∈ fs.files := by
  induction comps generalizing here with
  | nil => simp [walk] at found
  | cons c rest ih =>
    rw [walk] at found
    rw [reach]
    split at found
    · simpa [*] using ih found
    split at found
    · simpa [*] using ih found
    split at found
    · simp at found
    rename_i skip up _
    simp only [skip, up, if_false]
    split at found
    · simp at found
    · rename_i entry
      simpa [entry] using ih found
    · rename_i content' entry
      split at found
      · rename_i last
        simp only [Except.ok.injEq, Entry.file.injEq] at found
        subst found
        simp only [entry, last, if_true, Option.map_some, Option.some.injEq, exists_eq_left']
        simp only [entryAt] at entry
        split at entry
        · simp at entry
        · simp only [Option.map_eq_some_iff, Entry.file.injEq] at entry
          obtain ⟨c', lookup, rfl⟩ := entry
          obtain ⟨l₁, l₂, split, -⟩ := List.lookup_eq_some_iff.mp lookup
          simp [split]
      · simp at found

theorem readLocated {fs : FileSystem} {p : String} {bytes : List UInt8}
    (read : fs.read p = .ok bytes) : ∃ key, fs.locate p = some key ∧ (key, bytes) ∈ fs.files := by
  unfold FileSystem.read lookup at read
  split at read
  · rename_i found
    split at found
    · simp at found
    split at found
    · simp at found
    split at found
    · simp at found
    simp only [Except.ok.injEq] at read
    subst read
    exact walkReaches found
  · simp at read
  · simp at read

theorem walkNotNul (fs : FileSystem) (here comps : List String) :
    fs.walk here comps ≠ .error .nulInPath := by
  induction comps generalizing here with
  | nil => simp [walk]
  | cons c rest ih =>
    rw [walk]
    split
    · exact ih here
    split
    · exact ih _
    split
    · simp
    split
    · simp
    · exact ih _
    · split <;> simp

theorem readNul {fs : FileSystem} {p : String} (read : fs.read p = .error .nulInPath) :
    Char.ofNat 0 ∈ p.toList := by
  unfold FileSystem.read lookup at read
  split at read
  · simp at read
  · simp at read
  · rename_i why found
    simp only [Except.error.injEq] at read
    subst read
    split at found
    · simp at found
    split at found
    · rename_i nul
      simpa using nul
    split at found
    · simp at found
    exact absurd found (walkNotNul _ _ _)

end FileSystem

def openAfter : List String → List Notice → List String
  | stack, [] => stack
  | stack, .openedFile p :: log => openAfter (p :: stack) log
  | stack, .closedFile _ :: log => openAfter stack.tail log
  | stack, _ :: log => openAfter stack log

def OpensFresh (files : FileSystem) : List String → List Notice → Prop
  | _, [] => True
  | stack, .openedFile p :: log =>
    (∀ q ∈ stack, files.locate q ≠ files.locate p) ∧ OpensFresh files (p :: stack) log
  | stack, .closedFile _ :: log => OpensFresh files stack.tail log
  | stack, _ :: log => OpensFresh files stack log

section

variable {files : FileSystem}

theorem openAfterCons (stack : List String) (n : Notice) (log : List Notice) :
    openAfter stack (n :: log) = openAfter (openAfter stack [n]) log := by
  cases n <;> rfl

theorem opensFreshCons (stack : List String) (n : Notice) (log : List Notice) :
    OpensFresh files stack (n :: log) ↔
      OpensFresh files stack [n] ∧ OpensFresh files (openAfter stack [n]) log := by
  cases n <;> simp [OpensFresh, openAfter]

theorem openAfterAppend (stack : List String) (first second : List Notice) :
    openAfter stack (first ++ second) = openAfter (openAfter stack first) second := by
  induction first generalizing stack with
  | nil => rfl
  | cons n first ih => rw [List.cons_append, openAfterCons, ih, openAfterCons stack n first]

theorem opensFreshAppend (stack : List String) (first second : List Notice) :
    OpensFresh files stack (first ++ second) ↔
      OpensFresh files stack first ∧ OpensFresh files (openAfter stack first) second := by
  induction first generalizing stack with
  | nil => simp [OpensFresh, openAfter]
  | cons n first ih =>
    rw [List.cons_append, opensFreshCons, ih, opensFreshCons stack n first, openAfterCons stack n first]
    tauto

theorem opensFreshEvents (stack : List String) (log : List Notice) :
    OpensFresh files stack (log.filter Notice.isFileEvent) ↔ OpensFresh files stack log := by
  induction log generalizing stack with
  | nil => rfl
  | cons n log ih => cases n <;> simp [List.filter_cons, Notice.isFileEvent, OpensFresh, ih]

theorem openAfterCloses (stack closed : List String) :
    openAfter stack (closed.map Notice.closedFile) = stack.drop closed.length := by
  induction closed generalizing stack with
  | nil => rfl
  | cons p closed ih => simp [openAfter, ih, List.drop_tail]

end

theorem openFilesBounded {files : FileSystem} {stack : List String}
    (distinct : (stack.map files.locate).Nodup)
    (listed : ∀ q ∈ stack, ∃ key ∈ files.files.map Prod.fst, files.locate q = some key) :
    stack.length ≤ files.files.length := by
  have within : stack.map files.locate ⊆ (files.files.map Prod.fst).map some := by
    intro x mem
    obtain ⟨q, inStack, rfl⟩ := List.mem_map.mp mem
    obtain ⟨key, listedKey, located⟩ := listed q inStack
    exact List.mem_map.mpr ⟨key, listedKey, located.symm⟩
  simpa using (distinct.subperm within).length_le

end Maketree
