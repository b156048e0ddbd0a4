import Flipbook.Text.Basic

namespace Flipbook

abbrev Table (α : Type) (κ : Type := Text) := List (κ × α)

namespace Table

def names {α κ : Type} (table : Table α κ) : List κ := table.map (·.1)

variable {α κ : Type} [DecidableEq κ]

def get? (table : Table α κ) (name : κ) : Option α :=
  (table.find? (·.1 = name)).map (·.2)

def contains (table : Table α κ) (name : κ) : Bool := table.any (·.1 = name)

/-- A name that is there keeps its place and gets the new value. -/
def insert (table : Table α κ) (name : κ) (value : α) : Table α κ :=
  match table with
  | [] => [(name, value)]
  | (known, old) :: rest =>
    if known = name then (name, value) :: rest else (known, old) :: insert rest name value

def update (table other : Table α κ) : Table α κ :=
  other.foldl (fun t (name, value) => t.insert name value) table

def ofList (entries : List (κ × α)) : Table α κ := update [] entries

@[simp] theorem get?_nil (name : κ) : get? ([] : Table α κ) name = none := rfl

theorem get?_cons (known name : κ) (value : α) (rest : Table α κ) :
    get? ((known, value) :: rest) name = if known = name then some value else get? rest name := by
  by_cases h : known = name <;> simp [get?, h]

theorem get?_insert (table : Table α κ) (name other : κ) (value : α) :
    (table.insert name value).get? other = if name = other then some value else table.get? other := by
  induction table with
  | nil => simp [insert, get?_cons]
  | cons entry rest ih =>
    obtain ⟨known, old⟩ := entry
    by_cases h : known = name
    · subst h; by_cases h' : known = other <;> simp [insert, get?_cons, h']
    · simp only [insert, if_neg h, get?_cons, ih]
      by_cases h' : known = other
      · subst h'; simp [Ne.symm h]
      · simp [h']

theorem names_insert (table : Table α κ) (name : κ) (value : α) :
    (table.insert name value).names = if name ∈ table.names then table.names else table.names ++ [name] := by
  induction table with
  | nil => simp [insert, names]
  | cons entry rest ih =>
    obtain ⟨known, old⟩ := entry
    by_cases h : known = name
    · subst h; simp [insert, names]
    · simp only [names] at ih
      simp only [insert, if_neg h, names, List.map_cons, ih, List.mem_cons]
      by_cases h' : name ∈ rest.map (·.1) <;> simp [h', Ne.symm h]

theorem get?_append (table other : Table α κ) (name : κ) :
    get? (table ++ other) name = (get? table name).or (get? other name) := by
  induction table with
  | nil => simp
  | cons entry rest ih =>
    obtain ⟨known, value⟩ := entry
    rw [List.cons_append, get?_cons, get?_cons, ih]
    split <;> rfl

theorem mem_of_get? {table : Table α κ} {name : κ} {value : α} (found : table.get? name = some value) :
    (name, value) ∈ table := by
  obtain ⟨entry, first, rfl⟩ := Option.map_eq_some_iff.mp found
  have same : entry.1 = name := by simpa using List.find?_some first
  rw [← same]
  exact List.mem_of_find?_eq_some first

theorem contains_eq_isSome (table : Table α κ) (name : κ) : table.contains name = (table.get? name).isSome := by
  rw [contains, get?, Option.isSome_map, List.isSome_find?]

theorem get?_filter {keeps : κ → Bool} {table : Table α κ} {name : κ} (kept : keeps name) :
    get? (table.filter fun entry => keeps entry.1) name = table.get? name := by
  induction table with
  | nil => rfl
  | cons entry rest ih =>
    obtain ⟨known, value⟩ := entry
    rw [List.filter_cons, get?_cons]
    by_cases same : known = name
    · rw [if_pos (by rw [same]; exact kept), get?_cons]
      rw [if_pos same, if_pos same]
    · rw [if_neg same]
      split
      · rw [get?_cons, if_neg same, ih]
      · exact ih

theorem get?_eq_none {table : Table α κ} {name : κ} (absent : name ∉ table.names) : table.get? name = none := by
  cases found : table.get? name with
  | none => rfl
  | some value => exact absurd (List.mem_map_of_mem (mem_of_get? found)) absent

theorem get?_of_mem {table : Table α κ} (distinct : table.names.Nodup) {name : κ} {value : α}
    (member : (name, value) ∈ table) : table.get? name = some value := by
  induction table with
  | nil => cases member
  | cons entry rest ih =>
    obtain ⟨known, old⟩ := entry
    obtain ⟨fresh, distinct⟩ := List.nodup_cons.mp distinct
    rw [get?_cons]
    rcases List.mem_cons.mp member with same | later
    · cases same
      exact if_pos rfl
    · have inside : name ∈ names rest := List.mem_map_of_mem later
      have other : known ≠ name := fun same => fresh (same ▸ inside)
      rw [if_neg other]
      exact ih distinct later

theorem get?_map {β : Type} (f : α → β) (table : Table α κ) (name : κ) :
    get? (table.map fun entry => (entry.1, f entry.2)) name = (table.get? name).map f := by
  induction table with
  | nil => rfl
  | cons entry rest ih =>
    obtain ⟨known, value⟩ := entry
    rw [List.map_cons, get?_cons, get?_cons, ih]
    split <;> rfl

theorem get?_update (table other : Table α κ) (name : κ) :
    (table.update other).get? name = (get? other.reverse name).or (table.get? name) := by
  induction other generalizing table with
  | nil => simp [update]
  | cons entry rest ih =>
    obtain ⟨known, value⟩ := entry
    have step : table.update ((known, value) :: rest) = (table.insert known value).update rest := rfl
    rw [step, ih, get?_insert, List.reverse_cons, get?_append, get?_cons, get?_nil, Option.or_assoc]
    split <;> simp

theorem get?_ofList (entries : List (κ × α)) (name : κ) :
    (ofList entries).get? name = get? entries.reverse name := by
  rw [ofList, get?_update, get?_nil, Option.or_none]

theorem names_update [BEq κ] [LawfulBEq κ] (table entries : Table α κ) :
    (table.update entries).names = table.names ++ (entries.names.removeAll table.names).eraseDups := by
  induction entries generalizing table with
  | nil => simp [update, names]
  | cons entry rest ih =>
    obtain ⟨name, value⟩ := entry
    have step : table.update ((name, value) :: rest) = (table.insert name value).update rest := rfl
    have names : names ((name, value) :: rest) = name :: names rest := rfl
    rw [step, ih, names_insert, names, List.cons_removeAll]
    by_cases known : name ∈ table.names
    · rw [if_pos known, if_neg (by simpa using known)]
    · have apart : (Table.names rest).removeAll (table.names ++ [name]) =
          ((Table.names rest).removeAll table.names).filter fun other => !other == name := by
        rw [List.removeAll, List.removeAll, List.filter_filter]
        refine List.filter_congr fun other _ => ?_
        rw [Bool.eq_iff_iff]
        simp [and_comm]
      rw [if_neg known, if_pos (by simpa using known), List.eraseDups_cons, apart, List.append_assoc,
        List.singleton_append]

theorem names_ofList [BEq κ] [LawfulBEq κ] (entries : List (κ × α)) :
    (ofList entries).names = (entries.map (·.1)).eraseDups := by
  rw [ofList, names_update]
  exact congrArg List.eraseDups List.removeAll_nil

end Table
end Flipbook
