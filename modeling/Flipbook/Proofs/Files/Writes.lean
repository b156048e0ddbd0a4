import Flipbook.Files.FileTree
import Flipbook.Proofs.Outcome

namespace Flipbook.FileTree

open Text

variable {tree after : FileTree} {path other : Path} {place target found : Place} {content : Bytes}

theorem entry?_insert (apart : tree.entry? target ≠ some .directory) (content : Bytes) (place : Place) :
    entry? (tree.insert target (.file content)) place =
      if target = place then some (.file content) else tree.entry? place := by
  unfold entry? at apart ⊢
  rw [Table.get?_insert]
  by_cases above : isAbove place
  · have other : target ≠ place := by
      intro same
      rw [same, if_pos above] at apart
      exact apart rfl
    rw [if_pos above, if_neg other]
    exact (if_pos above).symm
  · rw [if_neg above, if_neg above]

theorem walk_cons (tree : FileTree) (place : Place) (name : Text) (rest : List Text) :
    walk tree place (name :: rest) = match tree.entry? place with
      | none => .error .notFound
      | some (.file _) => .error .notDirectory
      | some .directory =>
        if name = ['.'] then walk tree place rest
        else if name = up then walk tree (above place) rest
        else if mostNameBytes < byteLength name then .error .nameTooLong
        else walk tree (place ++ [name]) rest := rfl

theorem walk_insert (apart : tree.entry? target ≠ some .directory) (content : Bytes) (names : List Text)
    (place : Place) :
    walk (tree.insert target (.file content)) place names = .ok found ↔ walk tree place names = .ok found := by
  induction names generalizing place with
  | nil => rfl
  | cons name rest ih =>
    rw [walk_cons, walk_cons, entry?_insert apart]
    by_cases same : target = place
    · rw [if_pos same]
      rw [same] at apart
      cases here : tree.entry? place with
      | none => simp
      | some entry =>
        cases entry with
        | file => simp
        | directory => exact absurd here apart
    · rw [if_neg same]
      cases tree.entry? place with
      | none => rfl
      | some entry =>
        cases entry with
        | file => rfl
        | directory =>
          simp only
          split
          · exact ih place
          · split
            · exact ih _
            · split
              · rfl
              · exact ih _

theorem resolve_insert (apart : tree.entry? target ≠ some .directory) (content : Bytes) (path : Path) :
    resolve (tree.insert target (.file content)) path = .ok found ↔ tree.resolve path = .ok found := by
  unfold resolve
  split
  · rfl
  · split
    · rfl
    · exact walk_insert apart content _ _

theorem write_ok (written : tree.write path content = .ok after) :
    ∃ place, tree.resolve path = .ok place ∧ tree.entry? place ≠ some .directory ∧
      after = tree.insert place (.file content) := by
  obtain ⟨place, resolved, written⟩ := bind_eq_ok written
  refine ⟨place, resolved, ?_⟩
  split at written
  · rename_i here
    cases written
    exact ⟨by rw [here]; simp, rfl⟩
  · rename_i here
    cases written
    exact ⟨by rw [here]; simp, rfl⟩
  · cases written

theorem resolve_write (written : tree.write path content = .ok after) (other : Path) :
    after.resolve other = .ok found ↔ tree.resolve other = .ok found := by
  obtain ⟨place, -, apart, rfl⟩ := write_ok written
  exact resolve_insert apart content other

theorem read_of_resolve (resolved : tree.resolve path = .ok place) :
    tree.read path = match tree.entry? place with
      | none => .error .notFound
      | some (.file content) => .ok content
      | some .directory => .error .isDirectory := by
  unfold read
  rw [resolved]
  rfl

theorem read_write (written : tree.write path content = .ok after) (resolved : tree.resolve other = .ok place) :
    after.read other = if tree.resolve path = tree.resolve other then .ok content else tree.read other := by
  have resolved' := (resolve_write written other).mpr resolved
  obtain ⟨target, reached, apart, rfl⟩ := write_ok written
  have place_iff : tree.resolve path = tree.resolve other ↔ target = place := by
    rw [reached, resolved, Except.ok.injEq]
  rw [read_of_resolve resolved', entry?_insert apart, read_of_resolve resolved]
  by_cases same : target = place
  · rw [if_pos same, if_pos (place_iff.mpr same)]
  · rw [if_neg same, if_neg (mt place_iff.mp same)]

theorem size_write (written : tree.write path content = .ok after) : after.size path = .ok content.length := by
  obtain ⟨place, resolved, -⟩ := write_ok written
  have reads : after.read path = .ok content := by rw [read_write written resolved, if_pos rfl]
  unfold size
  rw [reads]
  rfl

/-- Writes contents to paths, in their order. -/
def writeAll (tree : FileTree) (writes : List (Path × Bytes)) : Except FileProblem FileTree :=
  writes.foldlM (fun tree (path, content) => tree.write path content) tree

/-- The last content for the place of a path. -/
def lastWritten? (tree : FileTree) (writes : List (Path × Bytes)) (path : Path) : Option Bytes :=
  (writes.reverse.find? fun write => tree.resolve write.1 = tree.resolve path).map (·.2)

variable {writes : List (Path × Bytes)}

theorem writeAll_cons (tree : FileTree) (write : Path × Bytes) (rest : List (Path × Bytes)) :
    writeAll tree (write :: rest) = tree.write write.1 write.2 >>= fun between => writeAll between rest :=
  List.foldlM_cons

theorem writeAll_singleton (tree : FileTree) (write : Path × Bytes) :
    writeAll tree [write] = tree.write write.1 write.2 := by
  rw [writeAll_cons]
  exact bind_pure _

theorem writeAll_append (tree : FileTree) (writes later : List (Path × Bytes)) :
    writeAll tree (writes ++ later) = writeAll tree writes >>= fun between => writeAll between later :=
  List.foldlM_append

theorem resolve_writeAll (written : writeAll tree writes = .ok after) (other : Path) :
    after.resolve other = .ok found ↔ tree.resolve other = .ok found := by
  induction writes generalizing tree with
  | nil =>
    cases written
    rfl
  | cons write rest ih =>
    rw [writeAll_cons] at written
    obtain ⟨between, first, later⟩ := bind_eq_ok written
    exact (ih later).trans (resolve_write first other)

theorem lastWritten?_cons (tree : FileTree) (write : Path × Bytes) (writes : List (Path × Bytes)) (path : Path) :
    lastWritten? tree (write :: writes) path = (lastWritten? tree writes path).or
      (if tree.resolve write.1 = tree.resolve path then some write.2 else none) := by
  unfold lastWritten?
  rw [List.reverse_cons, List.find?_append, Option.map_or]
  by_cases same : tree.resolve write.1 = tree.resolve path <;> simp [same]

theorem lastWritten?_writeAll {earlier : List (Path × Bytes)} (written : writeAll tree earlier = .ok after)
    (resolved : tree.resolve path = .ok place) (writes : List (Path × Bytes)) :
    lastWritten? after writes path = lastWritten? tree writes path := by
  have resolved' := (resolve_writeAll written path).mpr resolved
  have same : (fun write : Path × Bytes => decide (after.resolve write.1 = after.resolve path)) =
      fun write => decide (tree.resolve write.1 = tree.resolve path) := by
    funext write
    rw [decide_eq_decide, resolved, resolved']
    exact resolve_writeAll written write.1
  unfold lastWritten?
  rw [same]

/-- A path reads what was written last to its place, or else what was there before. -/
theorem read_writeAll (written : writeAll tree writes = .ok after) (resolved : tree.resolve path = .ok place) :
    after.read path = match lastWritten? tree writes path with
      | some content => .ok content
      | none => tree.read path := by
  induction writes generalizing tree with
  | nil =>
    cases written
    rfl
  | cons write rest ih =>
    rw [writeAll_cons] at written
    obtain ⟨between, first, later⟩ := bind_eq_ok written
    have alone : writeAll tree [write] = .ok between := (writeAll_singleton tree write).trans first
    have resolved' := (resolve_write first path).mpr resolved
    rw [ih later resolved', lastWritten?_cons, read_write first resolved, lastWritten?_writeAll alone resolved]
    cases lastWritten? tree rest path with
    | some content => rfl
    | none =>
      by_cases same : tree.resolve write.1 = tree.resolve path
      · rw [if_pos same, if_pos same]
        rfl
      · rw [if_neg same, if_neg same]
        rfl

theorem resolve_of_mem (written : writeAll tree writes = .ok after) (member : (path, content) ∈ writes) :
    ∃ place, after.resolve path = .ok place := by
  induction writes generalizing tree with
  | nil => cases member
  | cons write rest ih =>
    rw [writeAll_cons] at written
    obtain ⟨between, first, later⟩ := bind_eq_ok written
    rcases List.mem_cons.mp member with rfl | inside
    · obtain ⟨place, resolved, -⟩ := write_ok first
      exact ⟨place, (resolve_writeAll later path).mpr ((resolve_write first path).mpr resolved)⟩
    · exact ih later inside

theorem lastWritten?_of_mem (tree : FileTree) (member : (path, content) ∈ writes) :
    ∃ last, (∃ other, (other, last) ∈ writes ∧ tree.resolve other = tree.resolve path) ∧
      lastWritten? tree writes path = some last := by
  unfold lastWritten?
  cases found : writes.reverse.find? fun write => tree.resolve write.1 = tree.resolve path with
  | none =>
    have apart := List.find?_eq_none.mp found (path, content) (List.mem_reverse.mpr member)
    exact absurd (decide_eq_true rfl) apart
  | some write =>
    have inside := List.mem_reverse.mp (List.mem_of_find?_eq_some found)
    have same := List.find?_some found
    exact ⟨write.2, ⟨write.1, inside, of_decide_eq_true same⟩, rfl⟩

theorem read_of_mem (written : writeAll tree writes = .ok after) (member : (path, content) ∈ writes) :
    ∃ last, lastWritten? after writes path = some last ∧ after.read path = .ok last := by
  obtain ⟨place, resolved⟩ := resolve_of_mem written member
  have resolved' := (resolve_writeAll written path).mp resolved
  obtain ⟨last, -, found⟩ := lastWritten?_of_mem after member
  have reading := read_writeAll written resolved'
  rw [← lastWritten?_writeAll written resolved', found] at reading
  exact ⟨last, found, reading⟩

end Flipbook.FileTree
