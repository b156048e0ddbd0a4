import Flipbook.Proofs.Files.Names
import Flipbook.Proofs.Files.Session
import Flipbook.Proofs.Text.Joined

namespace Flipbook

open Text

namespace Path

/-- A null character in the path. -/
def HasNull (path : Path) : Prop := '\x00' ∈ path.text

instance (path : Path) : Decidable path.HasNull := inferInstanceAs (Decidable ('\x00' ∈ path.text))

theorem hasNull_iff {path : Path} : path.HasNull ↔ '\x00' ∈ path.root ∨ ∃ part ∈ path.parts, '\x00' ∈ part := by
  unfold HasNull text
  split
  · rename_i empty
    rw [Bool.and_eq_true, List.isEmpty_iff, List.isEmpty_iff] at empty
    rw [empty.1, empty.2]
    simp
  · rw [List.mem_append]
    apply or_congr Iff.rfl
    constructor
    · intro inside
      rcases mem_joinWith inside with found | slash
      · exact found
      · exact absurd slash (by decide)
    · rintro ⟨part, member, inside⟩
      exact mem_joinWith_of_mem member inside

theorem HasNull.of_parent {path : Path} (null : path.parent.HasNull) : path.HasNull := by
  rw [hasNull_iff] at null ⊢
  rcases null with root | ⟨part, member, inside⟩
  · exact .inl root
  · exact .inr ⟨part, List.dropLast_subset _ member, inside⟩

theorem hasNull_verbatim {t : Text} : (verbatim t).HasNull ↔ '\x00' ∈ t := by
  have noRoot : '\x00' ∉ (verbatim t).root := by
    change '\x00' ∉ rootOf t
    unfold rootOf
    split <;> decide
  have words : (∃ word ∈ wordsBy (· = '/') t, '\x00' ∈ word) ↔ '\x00' ∈ t := mem_wordsBy (by decide)
  rw [hasNull_iff, or_iff_right noRoot, ← words]
  unfold verbatim
  dsimp only
  split
  · simp
  · rfl

theorem HasNull.of_stem {path : Path} (inside : '\x00' ∈ path.stem) : path.HasNull :=
  hasNull_iff.mpr (.inr (mem_stem inside))

end Path

namespace FileTree

variable {tree : FileTree} {path : Path}

theorem walk_ne_notAName (place : Place) (names : List Text) : walk tree place names ≠ .error .notAName := by
  induction names generalizing place with
  | nil => exact nofun
  | cons name rest ih =>
    rw [walk_cons]
    split
    · exact nofun
    · exact nofun
    · split
      · exact ih place
      · split
        · exact ih _
        · split
          · exact nofun
          · exact ih _

theorem resolve_eq_notAName : tree.resolve path = .error .notAName ↔ path.HasNull := by
  unfold resolve Path.HasNull
  by_cases null : '\x00' ∈ path.text
  · simp only [List.contains_iff_mem.mpr null, null, if_true]
    exact iff_of_true rfl trivial
  · have absent : path.text.contains '\x00' = false := by
      rw [Bool.eq_false_iff]
      exact mt List.contains_iff_mem.mp null
    rw [absent, if_neg Bool.false_ne_true]
    apply iff_of_false _ null
    split
    · exact nofun
    · exact walk_ne_notAName _ _

section actions

variable {α : Type}

theorem at_place_eq_notAName {next : Place → Except FileProblem α} (accepts : ∀ place, next place ≠ .error .notAName) :
    (tree.resolve path >>= next) = .error .notAName ↔ path.HasNull := by
  rw [← resolve_eq_notAName]
  cases tree.resolve path with
  | ok place =>
    apply iff_of_false (accepts place)
    exact nofun
  | error problem =>
    have same : (Except.error problem >>= next) = .error problem := rfl
    rw [same, Except.error.injEq, Except.error.injEq]

end actions

theorem kind_eq_notAName : tree.kind path = .error .notAName ↔ path.HasNull :=
  at_place_eq_notAName fun place => by split <;> exact nofun

theorem read_eq_notAName : tree.read path = .error .notAName ↔ path.HasNull :=
  at_place_eq_notAName fun place => by split <;> exact nofun

theorem makeDirectory_eq_notAName : tree.makeDirectory path = .error .notAName ↔ path.HasNull :=
  at_place_eq_notAName fun place => by split <;> exact nofun

theorem write_eq_notAName {content : Bytes} : tree.write path content = .error .notAName ↔ path.HasNull :=
  at_place_eq_notAName fun place => by split <;> exact nofun

end FileTree

namespace FileSystem

variable {σ : Type} {path : Path} {world after : World σ}

theorem finish_ensureDirectory_of_hasNull (null : path.HasNull) :
    finish (ensureDirectory path : ExceptT FileError (Session σ) Unit) world = (.error ⟨.notAName, path⟩, world) := by
  unfold ensureDirectory
  rw [finish_tryCatch, finish_makeDirectory, FileTree.makeDirectory_eq_notAName.mpr null]
  unfold changed
  simp only
  rw [if_neg (by decide)]
  rw [finish_bind, finish_is, FileTree.kind_eq_notAName.mpr null]
  rfl

theorem finish_ensureDirectories_of_hasNull (null : path.HasNull) (above : Nat) :
    finish (ensureDirectories above path : ExceptT FileError (Session σ) Unit) world =
      (.error ⟨.notAName, path⟩, world) := by
  cases above with
  | zero => exact finish_ensureDirectory_of_hasNull null
  | succ above =>
    unfold ensureDirectories
    rw [finish_tryCatch, finish_ensureDirectory_of_hasNull null]
    simp only
    rw [if_pos (by decide)]
    rfl

theorem is_accepts (free : ¬path.HasNull) {wanted : FileKind} {e : FileError}
    (failed : finish (is wanted path : ExceptT FileError (Session σ) Bool) world = (.error e, after)) :
    e.problem ≠ .notAName := by
  rw [finish_is] at failed
  cases looked : world.tree.kind path with
  | ok kind =>
    rw [looked] at failed
    cases failed
  | error problem =>
    rw [looked] at failed
    simp only at failed
    split at failed
    · cases failed
    · cases failed
      rintro rfl
      exact free (FileTree.kind_eq_notAName.mp looked)

theorem ensureDirectory_accepts (free : ¬path.HasNull) {e : FileError}
    (failed : finish (ensureDirectory path : ExceptT FileError (Session σ) Unit) world = (.error e, after)) :
    e.problem ≠ .notAName := by
  unfold ensureDirectory at failed
  rw [finish_tryCatch, finish_makeDirectory] at failed
  cases made : world.tree.makeDirectory path with
  | ok tree =>
    rw [made] at failed
    cases failed
  | error problem =>
    have known : problem ≠ .notAName := by
      rintro rfl
      exact free (FileTree.makeDirectory_eq_notAName.mp made)
    rw [made] at failed
    unfold changed at failed
    simp only at failed
    split at failed
    · cases failed
      exact known
    · rw [finish_bind] at failed
      split at failed
      · split at failed
        · cases failed
          exact known
        · cases failed
      · rename_i refused
        cases failed
        exact is_accepts free refused

theorem ensureDirectories_accepts (free : ¬path.HasNull) {above : Nat} {e : FileError}
    (failed : finish (ensureDirectories above path : ExceptT FileError (Session σ) Unit) world = (.error e, after)) :
    e.problem ≠ .notAName := by
  induction above generalizing path world after e with
  | zero => exact ensureDirectory_accepts free failed
  | succ above ih =>
    unfold ensureDirectories at failed
    rw [finish_tryCatch] at failed
    split at failed
    · cases failed
    · rename_i first between missing
      split at failed
      · cases failed
        exact ensureDirectory_accepts free missing
      · rw [finish_bind] at failed
        split at failed
        · exact ensureDirectory_accepts free failed
        · rename_i second between' aboveFailed
          cases failed
          exact ih (mt Path.HasNull.of_parent free) aboveFailed

theorem finish_makeDirectories_of_hasNull (null : path.HasNull) :
    finish (makeDirectories path : ExceptT FileError (Session σ) Unit) world = (.error ⟨.notAName, path⟩, world) :=
  finish_ensureDirectories_of_hasNull null _

theorem finish_makeDirectories_notAName {e : FileError}
    (failed : finish (makeDirectories path : ExceptT FileError (Session σ) Unit) world = (.error e, after)) :
    e.problem = .notAName ↔ path.HasNull := by
  constructor
  · intro refused
    by_contra free
    exact ensureDirectories_accepts free failed refused
  · intro null
    rw [finish_makeDirectories_of_hasNull null] at failed
    cases failed
    rfl

end FileSystem

end Flipbook
