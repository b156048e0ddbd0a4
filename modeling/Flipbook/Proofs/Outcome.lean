import Mathlib.Data.List.Forall2

namespace Flipbook

variable {ε α β : Type}

theorem ok_bind (value : α) (next : α → Except ε β) : (Except.ok value >>= next) = next value := rfl

theorem bind_eq_ok {computation : Except ε α} {next : α → Except ε β} {result : β}
    (computed : computation >>= next = .ok result) : ∃ value, computation = .ok value ∧ next value = .ok result := by
  cases computation with
  | error e => cases computed
  | ok value => exact ⟨value, rfl, computed⟩

theorem bind_eq_error {computation : Except ε α} {next : α → Except ε β} {e : ε} :
    computation >>= next = .error e ↔
      computation = .error e ∨ ∃ value, computation = .ok value ∧ next value = .error e := by
  cases computation with
  | error e' =>
    have same : ((Except.error e' : Except ε α) >>= next) = .error e' := rfl
    simp [same]
  | ok value => simp [ok_bind]

theorem exists_of_isOk {computation : Except ε α} (succeeds : computation.isOk = true) :
    ∃ value, computation = .ok value := by
  cases computation with
  | error e => cases succeeds
  | ok value => exact ⟨value, rfl⟩

theorem exists_of_run_isOk {ε' σ : Type} {computation : Except ε α} {run : α → Except ε' β × σ}
    (succeeds : (computation.toOption.map fun value => (run value).1.isOk) = some true) :
    ∃ value result after, computation = .ok value ∧ run value = (.ok result, after) := by
  cases computation with
  | error e => cases succeeds
  | ok value =>
    obtain ⟨result, ended⟩ := exists_of_isOk (Option.some.inj succeeds)
    exact ⟨value, result, (run value).2, rfl, Prod.ext ended rfl⟩

theorem map_eq_ok {f : α → β} {computation : Except ε α} {result : β} (computed : computation.map f = .ok result) :
    ∃ value, computation = .ok value ∧ f value = result := by
  cases computation with
  | error e => cases computed
  | ok value => exact ⟨value, rfl, Except.ok.inj computed⟩

theorem map_eq_error {f : α → β} {computation : Except ε α} {e : ε} :
    computation.map f = .error e ↔ computation = .error e := by
  cases computation <;> simp [Except.map]

theorem mapError_eq_ok {ε' : Type} {f : ε → ε'} {computation : Except ε α} {result : α} :
    computation.mapError f = .ok result ↔ computation = .ok result := by
  cases computation <;> simp [Except.mapError]

theorem mapError_eq_error {ε' : Type} {f : ε → ε'} {computation : Except ε α} {e : ε'} :
    computation.mapError f = .error e ↔ ∃ cause, computation = .error cause ∧ f cause = e := by
  cases computation <;> simp [Except.mapError]

theorem forall₂_of_mapM {f : α → Except ε β} {items : List α} {results : List β}
    (mapped : items.mapM f = .ok results) : List.Forall₂ (fun item result => f item = .ok result) items results := by
  induction items generalizing results with
  | nil =>
    cases mapped
    exact .nil
  | cons item items ih =>
    rw [List.mapM_cons] at mapped
    obtain ⟨result, first, mapped⟩ := bind_eq_ok mapped
    obtain ⟨others, later, same⟩ := bind_eq_ok mapped
    cases same
    exact .cons first (ih later)

theorem mapM_fst {κ : Type} {f : α → Except ε (κ × β)} {key : α → κ}
    (keyed : ∀ a pair, f a = .ok pair → pair.1 = key a) {items : List α} {pairs : List (κ × β)}
    (mapped : items.mapM f = .ok pairs) : pairs.map (·.1) = items.map key := by
  have related := forall₂_of_mapM mapped
  clear mapped
  induction related with
  | nil => rfl
  | cons first others ih => rw [List.map_cons, List.map_cons, ih, keyed _ _ first]

theorem exists_of_mapM_error {f : α → Except ε β} {items : List α} {e : ε} (failed : items.mapM f = .error e) :
    ∃ item ∈ items, f item = .error e := by
  induction items with
  | nil => cases failed
  | cons item items ih =>
    rw [List.mapM_cons] at failed
    rcases bind_eq_error.mp failed with here | ⟨result, -, failed⟩
    · exact ⟨item, List.mem_cons_self, here⟩
    · rcases bind_eq_error.mp failed with later | ⟨results, -, impossible⟩
      · obtain ⟨other, member, cause⟩ := ih later
        exact ⟨other, List.mem_cons_of_mem _ member, cause⟩
      · cases impossible

theorem exists_of_mem_forall₂ {R : α → β → Prop} {as : List α} {bs : List β} (related : List.Forall₂ R as bs) {b : β}
    (member : b ∈ bs) : ∃ a ∈ as, R a b := by
  induction related with
  | nil => cases member
  | cons first others ih =>
    rcases List.mem_cons.mp member with rfl | member
    · exact ⟨_, List.mem_cons_self, first⟩
    · obtain ⟨a, inside, relates⟩ := ih member
      exact ⟨a, List.mem_cons_of_mem _ inside, relates⟩

end Flipbook
