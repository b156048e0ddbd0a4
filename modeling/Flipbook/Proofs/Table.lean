import Mathlib.Data.List.Nodup
import Flipbook.Table

namespace Flipbook.Table

variable {α κ : Type}

theorem names_cons (name : κ) (value : α) (rest : Table α κ) : names ((name, value) :: rest) = name :: rest.names := rfl

theorem nodup_nil : (names ([] : Table α κ)).Nodup := List.nodup_nil

variable [DecidableEq κ]

theorem mem_names_insert {table : Table α κ} {name other : κ} {value : α} :
    other ∈ (table.insert name value).names ↔ other = name ∨ other ∈ table.names := by
  rw [names_insert]
  split
  · rename_i known
    constructor
    · exact .inr
    · rintro (rfl | member)
      · exact known
      · exact member
  · rw [List.mem_append, List.mem_singleton, or_comm]

theorem nodup_insert {table : Table α κ} (distinct : table.names.Nodup) (name : κ) (value : α) :
    (table.insert name value).names.Nodup := by
  rw [names_insert]
  split
  · exact distinct
  · rename_i fresh
    rw [← List.concat_eq_append]
    exact distinct.concat fresh

theorem insert_insert (table : Table α κ) (name : κ) (old new : α) :
    (table.insert name old).insert name new = table.insert name new := by
  induction table with
  | nil => simp [insert]
  | cons entry rest ih =>
    obtain ⟨known, value⟩ := entry
    by_cases same : known = name
    · simp [insert, same]
    · simp [insert, same, ih]

theorem insert_comm {table : Table α κ} {name other : κ} (known : name ∈ table.names) (apart : name ≠ other)
    (value new : α) : (table.insert other value).insert name new = (table.insert name new).insert other value := by
  induction table with
  | nil => cases known
  | cons entry rest ih =>
    obtain ⟨first, old⟩ := entry
    by_cases same : first = name
    · subst same
      simp [insert, apart]
    · have later : name ∈ names rest := (List.mem_cons.mp known).resolve_left (Ne.symm same)
      by_cases same' : first = other
      · simp [insert, same', Ne.symm apart]
      · simp [insert, same, same', ih later]

theorem insert_of_fresh {table : Table α κ} {name : κ} (fresh : name ∉ table.names) (value : α) :
    table.insert name value = table ++ [(name, value)] := by
  induction table with
  | nil => rfl
  | cons entry rest ih =>
    have apart : entry.1 ≠ name := fun same => fresh (List.mem_cons.mpr (.inl same.symm))
    have later : name ∉ names rest := fun member => fresh (List.mem_cons.mpr (.inr member))
    rw [insert, if_neg apart, ih later, List.cons_append]

theorem update_cons (table other : Table α κ) (name : κ) (value : α) :
    table.update ((name, value) :: other) = (table.insert name value).update other := rfl

theorem nodup_update {table : Table α κ} (distinct : table.names.Nodup) (other : Table α κ) :
    (table.update other).names.Nodup := by
  induction other generalizing table with
  | nil => exact distinct
  | cons entry rest ih => exact ih (nodup_insert distinct entry.1 entry.2)

theorem nodup_ofList (entries : List (κ × α)) : (ofList entries).names.Nodup := nodup_update nodup_nil entries

theorem insert_update {table other : Table α κ} {name : κ} (known : name ∈ table.names) (fresh : name ∉ other.names)
    (value : α) : (table.update other).insert name value = (table.insert name value).update other := by
  induction other generalizing table with
  | nil => rfl
  | cons entry rest ih =>
    have apart : name ≠ entry.1 := fun same => fresh (List.mem_cons.mpr (.inl same))
    have later : name ∉ names rest := fun member => fresh (List.mem_cons.mpr (.inr member))
    rw [update_cons, update_cons, ih (mem_names_insert.mpr (.inr known)) later, insert_comm known apart]

theorem update_insert (table : Table α κ) {other : Table α κ} (distinct : other.names.Nodup) (name : κ) (value : α) :
    table.update (other.insert name value) = (table.update other).insert name value := by
  induction other generalizing table with
  | nil => rfl
  | cons entry rest ih =>
    obtain ⟨known, old⟩ := entry
    obtain ⟨fresh, distinct⟩ := List.nodup_cons.mp distinct
    by_cases same : known = name
    · subst same
      rw [insert, if_pos rfl, update_cons, update_cons, insert_update (mem_names_insert.mpr (.inl rfl)) fresh,
        insert_insert]
    · rw [insert, if_neg same, update_cons, update_cons, ih _ distinct]

theorem update_update (table : Table α κ) {other : Table α κ} (distinct : other.names.Nodup) (entries : Table α κ) :
    table.update (other.update entries) = (table.update other).update entries := by
  induction entries generalizing other with
  | nil => rfl
  | cons entry rest ih =>
    rw [update_cons, update_cons, ih (nodup_insert distinct entry.1 entry.2), update_insert table distinct]

theorem update_ofList (table entries : Table α κ) : table.update (ofList entries) = table.update entries :=
  update_update table nodup_nil entries

theorem ofList_append (entries later : List (κ × α)) :
    ofList (entries ++ later) = (ofList entries).update (ofList later) := by
  rw [update_ofList, ofList, ofList]
  exact List.foldl_append

theorem update_of_apart {table other : Table α κ} (distinct : other.names.Nodup)
    (apart : ∀ name ∈ other.names, name ∉ table.names) : table.update other = table ++ other := by
  induction other generalizing table with
  | nil => exact (List.append_nil table).symm
  | cons entry rest ih =>
    obtain ⟨name, value⟩ := entry
    obtain ⟨fresh, distinct⟩ := List.nodup_cons.mp distinct
    have first : table.insert name value = table ++ [(name, value)] :=
      insert_of_fresh (apart name List.mem_cons_self) value
    rw [update_cons, ih distinct, first, List.append_assoc, List.singleton_append]
    intro other member inside
    rcases mem_names_insert.mp inside with rfl | known
    · exact fresh member
    · exact apart other (List.mem_cons_of_mem _ member) known

theorem ofList_of_nodup {entries : List (κ × α)} (distinct : (entries.map (·.1)).Nodup) : ofList entries = entries :=
  update_of_apart distinct fun _ _ => List.not_mem_nil

/-- What one table over another gives: the names below keep their places and the new ones follow them, and of two
    values of a name the one above counts. -/
structure Overlays (above below result : Table α κ) : Prop where
  names : result.names = below.names ++ above.names.filter (· ∉ below.names)
  values : ∀ name, result.get? name = (above.get? name).or (below.get? name)

theorem overlays_update (below : Table α κ) {above : Table α κ} (distinct : above.names.Nodup) :
    Overlays above below (below.update above) := by
  induction above generalizing below with
  | nil => exact ⟨(List.append_nil below.names).symm, fun _ => rfl⟩
  | cons entry rest ih =>
    obtain ⟨name, value⟩ := entry
    obtain ⟨fresh, distinct⟩ := List.nodup_cons.mp distinct
    obtain ⟨inOrder, values⟩ := ih (below.insert name value) distinct
    refine ⟨?_, fun other => ?_⟩
    · rw [update_cons, inOrder, names_insert, names_cons]
      by_cases known : name ∈ below.names
      · simp only [if_pos known]
        rw [List.filter_cons_of_neg (by simpa using known)]
      · have apart : (names rest).filter (· ∉ below.names ++ [name]) = (names rest).filter (· ∉ below.names) := by
          refine List.filter_congr fun other member => ?_
          have ne : other ≠ name := fun same => fresh (same ▸ member)
          simp [ne]
        simp only [if_neg known]
        rw [apart, List.filter_cons_of_pos (by simpa using known), List.append_assoc, List.singleton_append]
    · rw [update_cons, values, get?_insert, get?_cons]
      by_cases same : name = other
      · subst same
        simp [get?_eq_none fresh]
      · rw [if_neg same, if_neg same]

end Flipbook.Table
