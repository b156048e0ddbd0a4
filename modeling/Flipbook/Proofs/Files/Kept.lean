import Flipbook.Proofs.Files.Session
import Flipbook.Proofs.Files.Writes

namespace Flipbook

open Text

namespace FileTree

def SameFiles (tree other : FileTree) : Prop :=
  ∀ place content, other.entry? place = some (.file content) ↔ tree.entry? place = some (.file content)

variable {tree after : FileTree} {path : Path} {place : Place}

theorem SameFiles.refl (tree : FileTree) : SameFiles tree tree := fun _ _ => Iff.rfl

theorem SameFiles.trans {between : FileTree} (first : SameFiles tree between) (second : SameFiles between after) :
    SameFiles tree after := fun place content => (second place content).trans (first place content)

theorem makeDirectory_sameFiles (made : tree.makeDirectory path = .ok after) : SameFiles tree after := by
  obtain ⟨target, -, made⟩ := bind_eq_ok made
  split at made
  · rename_i free
    cases made
    intro place content
    unfold entry? at free ⊢
    rw [Table.get?_insert]
    by_cases above : isAbove place
    · rw [if_pos above, if_pos above]
    · rw [if_neg above, if_neg above]
      by_cases same : target = place
      · -- there was nothing at the place of the new directory
        rw [same, if_neg above] at free
        rw [if_pos same, free]
        simp
      · rw [if_neg same]
  · cases made

theorem entry?_writeAll {writes : List (Path × Bytes)} (written : writeAll tree writes = .ok after)
    (apart : ∀ write ∈ writes, tree.resolve write.1 ≠ .ok place) : after.entry? place = tree.entry? place := by
  induction writes generalizing tree with
  | nil =>
    cases written
    rfl
  | cons write rest ih =>
    rw [writeAll_cons] at written
    obtain ⟨between, first, later⟩ := bind_eq_ok written
    obtain ⟨here, others⟩ := List.forall_mem_cons.mp apart
    have apart' : ∀ other ∈ rest, between.resolve other.1 ≠ .ok place := by
      intro other member resolved
      exact others other member ((resolve_write first other.1).mp resolved)
    rw [ih later apart']
    obtain ⟨target, resolved, free, rfl⟩ := write_ok first
    have elsewhere : target ≠ place := by
      rintro rfl
      exact here resolved
    rw [entry?_insert free, if_neg elsewhere]

end FileTree

open FileTree

variable {σ ε α β : Type}

/-- An action that leaves all files as they are, also where it fails. -/
def KeepsFiles (action : ExceptT ε (Session σ) α) : Prop :=
  ∀ world, SameFiles world.tree (finish action world).2.tree

namespace KeepsFiles

theorem of_unchanged {action : ExceptT ε (Session σ) α} (unchanged : ∀ world, (finish action world).2 = world) :
    KeepsFiles action := by
  intro world
  rw [unchanged]
  exact .refl _

theorem bind {action : ExceptT ε (Session σ) α} {next : α → ExceptT ε (Session σ) β} (first : KeepsFiles action)
    (others : ∀ value, KeepsFiles (next value)) : KeepsFiles (action >>= next) := by
  intro world
  have kept := first world
  rw [finish_bind]
  cases ended : finish action world with
  | mk outcome between =>
    rw [ended] at kept
    cases outcome with
    | ok value => exact kept.trans (others value between)
    | error e => exact kept

theorem tryCatch {action : ExceptT ε (Session σ) α} {rescue : ε → ExceptT ε (Session σ) α}
    (first : KeepsFiles action) (others : ∀ e, KeepsFiles (rescue e)) : KeepsFiles (tryCatch action rescue) := by
  intro world
  have kept := first world
  rw [finish_tryCatch]
  cases ended : finish action world with
  | mk outcome between =>
    rw [ended] at kept
    cases outcome with
    | ok value => exact kept
    | error e => exact kept.trans (others e between)

end KeepsFiles

namespace FileSystem

variable {path : Path}

theorem keepsFiles_makeDirectory : KeepsFiles (makeDirectory path : ExceptT FileError (Session σ) Unit) := by
  intro world
  rw [finish_makeDirectory]
  unfold changed
  cases made : world.tree.makeDirectory path with
  | ok tree => exact makeDirectory_sameFiles made
  | error problem => exact .refl _

theorem keepsFiles_ensureDirectory : KeepsFiles (ensureDirectory path : ExceptT FileError (Session σ) Unit) := by
  have stop (e : FileError) : KeepsFiles (throw e : ExceptT FileError (Session σ) Unit) := .of_unchanged fun _ => rfl
  have check (e : FileError) : KeepsFiles
      (is .directory path >>= fun found => if !found then throw e else pure () : ExceptT FileError (Session σ) Unit) := by
    apply KeepsFiles.bind (.of_unchanged fun world => by rw [finish_is])
    intro found
    cases found
    · exact stop e
    · exact .of_unchanged fun _ => rfl
  apply KeepsFiles.tryCatch keepsFiles_makeDirectory
  intro e
  by_cases missing : e.problem = .notFound
  · rw [if_pos missing]
    exact .bind (stop e) fun _ => check e
  · rw [if_neg missing]
    exact check e

theorem keepsFiles_ensureDirectories (above : Nat) :
    KeepsFiles (ensureDirectories above path : ExceptT FileError (Session σ) Unit) := by
  induction above generalizing path with
  | zero => exact keepsFiles_ensureDirectory
  | succ above ih =>
    have again : KeepsFiles (ensureDirectories above path.parent >>= fun _ => ensureDirectory path :
        ExceptT FileError (Session σ) Unit) := .bind ih fun _ => keepsFiles_ensureDirectory
    unfold ensureDirectories
    apply KeepsFiles.tryCatch keepsFiles_ensureDirectory
    intro e
    by_cases other : e.problem ≠ .notFound
    · rw [if_pos other]
      exact .bind (.of_unchanged fun _ => rfl) fun _ => again
    · rw [if_neg other]
      exact again

/-- Directories are made beside the files that are there. -/
theorem keepsFiles_makeDirectories (path : Path) :
    KeepsFiles (makeDirectories path : ExceptT FileError (Session σ) Unit) :=
  keepsFiles_ensureDirectories _

end FileSystem

end Flipbook
