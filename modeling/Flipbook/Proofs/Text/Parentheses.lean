import Flipbook.Text.Basic
import Mathlib.Algebra.Ring.Nat
import Mathlib.Data.List.Count
import Mathlib.Data.List.Infix

namespace Flipbook.Text

/-- Nowhere are more parentheses closed than were opened, and `n` are open at the end. -/
structure LeavesOpen (n : Nat) (t : Text) : Prop where
  covered : ∀ head, head <+: t → head.count ')' ≤ head.count '('
  total : t.count '(' = t.count ')' + n

instance (n : Nat) (t : Text) : Decidable (LeavesOpen n t) :=
  decidable_of_iff ((∀ head ∈ t.inits, head.count ')' ≤ head.count '(') ∧ t.count '(' = t.count ')' + n)
    ⟨fun holds => ⟨fun head isPrefix => holds.1 head ((List.mem_inits head t).mpr isPrefix), holds.2⟩,
      fun leaves => ⟨fun head member => leaves.covered head ((List.mem_inits head t).mp member), leaves.total⟩⟩

def Paired (t : Text) : Prop := LeavesOpen 0 t

instance (t : Text) : Decidable (Paired t) := inferInstanceAs (Decidable (LeavesOpen 0 t))

theorem LeavesOpen.paired_iff {n : Nat} {t : Text} (leaves : LeavesOpen n t) : Paired t ↔ n = 0 := by
  constructor
  · intro paired
    have same := leaves.total.symm.trans paired.total
    omega
  · rintro rfl
    exact leaves

theorem leavesOpen_of_unclosed {t : Text} (unclosed : ')' ∉ t) : LeavesOpen (t.count '(') t where
  covered head isPrefix := by
    rw [List.count_eq_zero.mpr fun closing => unclosed (isPrefix.subset closing)]
    exact Nat.zero_le _
  total := by rw [List.count_eq_zero.mpr unclosed, Nat.zero_add]

theorem paired_of_free {t : Text} (unopened : '(' ∉ t) (unclosed : ')' ∉ t) : Paired t := by
  have leaves := leavesOpen_of_unclosed unclosed
  rwa [List.count_eq_zero.mpr unopened] at leaves

theorem LeavesOpen.append {m n : Nat} {t u : Text} (first : LeavesOpen m t) (second : LeavesOpen n u) :
    LeavesOpen (m + n) (t ++ u) where
  covered head isPrefix := by
    rcases List.prefix_or_prefix_of_prefix isPrefix (List.prefix_append t u) with within | ⟨later, rfl⟩
    · exact first.covered head within
    · have here := second.covered later ((List.prefix_append_right_inj t).mp isPrefix)
      have before := first.total
      rw [List.count_append, List.count_append]
      omega
  total := by
    have before := first.total
    have after := second.total
    rw [List.count_append, List.count_append]
    omega

theorem LeavesOpen.close {n : Nat} {t : Text} (leaves : LeavesOpen (n + 1) t) : LeavesOpen n (t ++ [')']) where
  covered head isPrefix := by
    rcases List.prefix_concat_iff.mp isPrefix with rfl | within
    · have total := leaves.total
      simp only [List.count_append, List.count_singleton_self, List.count_singleton, Char.reduceBEq, Bool.false_eq_true,
        ↓reduceIte]
      omega
    · exact leaves.covered head within
  total := by
    have total := leaves.total
    simp only [List.count_append, List.count_singleton_self, List.count_singleton, Char.reduceBEq, Bool.false_eq_true,
      ↓reduceIte]
    omega

theorem leavesOpen_joinWith {ι : Type} {sep : Text} (separates : Paired sep) {items : List ι} {text : ι → Text}
    {opens : ι → Nat} (leaves : ∀ item ∈ items, LeavesOpen (opens item) (text item)) :
    LeavesOpen (items.map opens).sum (joinWith sep (items.map text)) := by
  induction items with
  | nil => exact paired_of_free List.not_mem_nil List.not_mem_nil
  | cons item items ih =>
    obtain ⟨first, later⟩ := List.forall_mem_cons.mp leaves
    have others := ih later
    cases items with
    | nil => exact first
    | cons second items =>
      have joined := (first.append separates).append others
      rw [Nat.add_zero] at joined
      exact joined

end Flipbook.Text
