import Flipbook.Frame.Timeline
import Flipbook.Proofs.Number.QuotientFloor
import Flipbook.Proofs.Outcome

namespace Flipbook.Timeline

open Css Binary64

variable {animation : Animation} {time : Float}

/-- The rounded number of durations is not of the parity of the whole durations in `v`: it is the next integer, or it
    is so great that only even numbers are left. -/
def CountsAstray (v : ℚ) : Prop := if ⌊v⌋₊ < 2 ^ 53 then ReachesNext v else ⌊v⌋₊ % 2 = 1

instance (v : ℚ) : Decidable (CountsAstray v) := inferInstanceAs (Decidable (ite ..))

/-- Progress at a place of a cycle. -/
def along (direction : Text) (cycle : Int) (forward : Float) : Float :=
  if isReversed direction cycle then 1.0 - forward else forward

/-- Every second cycle runs the other way. -/
def Alternates (direction : Text) : Prop := direction = "alternate".toList ∨ direction = "alternate-reverse".toList

theorem isReversed_congr (direction : Text) {cycle cycle' : Int} (same : cycle % 2 = cycle' % 2) :
    isReversed direction cycle = isReversed direction cycle' := by
  unfold isReversed
  rw [same]

theorem isReversed_next_iff (direction : Text) (cycle : Int) :
    isReversed direction (cycle + 1) = isReversed direction cycle ↔ ¬Alternates direction := by
  have next : (cycle + 1) % 2 = 1 - cycle % 2 := by omega
  unfold isReversed Alternates
  rw [next]
  by_cases forward : direction = "alternate".toList
  · subst forward
    rcases Int.emod_two_eq_zero_or_one cycle with parity | parity <;> rw [parity] <;> decide
  by_cases backward : direction = "alternate-reverse".toList
  · subst backward
    rcases Int.emod_two_eq_zero_or_one cycle with parity | parity <;> rw [parity] <;> decide
  rw [decide_eq_false forward, decide_eq_false backward, Bool.false_and, Bool.false_and, Bool.false_and,
    Bool.false_and]
  exact iff_of_true rfl (not_or.mpr ⟨forward, backward⟩)

theorem along_next_iff (direction : Text) (cycle : Int) (forward : Float) :
    along direction (cycle + 1) forward = along direction cycle forward ↔
      (Alternates direction → forward = 1.0 - forward) := by
  have parity := isReversed_next_iff direction cycle
  unfold along
  by_cases alternates : Alternates direction
  · have turned : isReversed direction (cycle + 1) ≠ isReversed direction cycle := fun same => parity.mp same alternates
    rw [imp_iff_right alternates]
    cases reversed : isReversed direction cycle with
    | false =>
      rw [reversed] at turned
      rw [Bool.eq_true_of_not_eq_false turned]
      exact eq_comm
    | true =>
      rw [reversed] at turned
      rw [Bool.eq_false_of_not_eq_true turned]
      rfl
  · rw [parity.mpr alternates]
    exact iff_of_true rfl fun other => absurd other alternates

theorem unsigned_elapsed (within : isFinite (elapsed animation time)) : Unsigned (elapsed animation time) := by
  unfold elapsed at within ⊢
  simp only at within ⊢
  split
  · rename_i later
    rw [if_pos later] at within
    exact unsigned_of_pos within later
  · exact unsigned_zero

theorem counted_mod_two {x y : Float} (unsigned : Unsigned x) (unsigned' : Unsigned y) (positive : 0 < value y) :
    ⌊rounding (value x / value y)⌋ % 2 =
      ((⌊value x / value y⌋₊ : Int) + if CountsAstray (value x / value y) then 1 else 0) % 2 := by
  unfold CountsAstray
  by_cases small : ⌊value x / value y⌋₊ < 2 ^ 53
  · simp only [if_pos small]
    rw [floor_rounding_div unsigned unsigned' positive small]
  · simp only [if_neg small]
    have even := Int.even_iff.mp (even_floor_rounding (not_lt.mp small))
    split <;> omega

theorem progress_eq {r : Float} (running : 0.0 < animation.duration)
    (left : remainder (elapsed animation time) animation.duration = .ok r) :
    progress animation time = (Binary64.floor (elapsed animation time / animation.duration)).map fun cycle =>
      along animation.direction cycle (r / animation.duration) := by
  unfold progress position
  rw [if_pos running, left]
  cases Binary64.floor (elapsed animation time / animation.duration) <;> rfl

theorem floor_div_eq {x y : Float} (unsigned : Unsigned x) (unsigned' : Unsigned y) (positive : 0 < value y) :
    Binary64.floor (x / y) =
      if value x / value y < 2 ^ 1024 - 2 ^ 970 then .ok ⌊rounding (value x / value y)⌋ else .error .tooLarge := by
  have above : 0 ≤ value x / value y := div_nonneg (value_nonneg unsigned) positive.le
  have rounds := rounds_div (isFinite_of_unsigned unsigned) (isFinite_of_unsigned unsigned') positive.ne'
  unfold Rounds at rounds
  rw [abs_of_nonneg (le_rounding isDouble_zero above)] at rounds
  simp only [rounding_lt_iff] at rounds
  split at rounds
  · rename_i within
    rw [if_pos within, floor_eq rounds.1, rounds.2]
  · rename_i beyond
    rw [if_neg beyond, floor_of_fault rounds]

/-- Progress is that of the place that the exact remainder is in its cycle, whose direction is by the number of
    durations as it is counted; and there is none if the durations are beyond counting. So it is that of the cycle
    itself unless the direction alternates and the count is astray. -/
theorem progress_of_cycle (finite : isFinite animation.duration) (running : 0.0 < animation.duration)
    (within : isFinite (elapsed animation time)) :
    ∃ (q : Nat) (r : Float), Unsigned r ∧ value (elapsed animation time) = q * value animation.duration + value r ∧
      value r < value animation.duration ∧
      progress animation time =
        (if value (elapsed animation time) / value animation.duration < 2 ^ 1024 - 2 ^ 970 then
          .ok (along animation.direction
            (q + if CountsAstray (value (elapsed animation time) / value animation.duration) then 1 else 0)
            (r / animation.duration))
        else .error .tooLarge) ∧
      (progress animation time = .ok (along animation.direction q (r / animation.duration)) ↔
        value (elapsed animation time) / value animation.duration < 2 ^ 1024 - 2 ^ 970 ∧
          (CountsAstray (value (elapsed animation time) / value animation.duration) → Alternates animation.direction →
            r / animation.duration = 1.0 - r / animation.duration)) := by
  have unsigned := unsigned_elapsed within
  have unsigned' := unsigned_of_pos finite running
  have positive := value_pos finite running
  have above : 0 ≤ value (elapsed animation time) / value animation.duration :=
    div_nonneg (value_nonneg unsigned) positive.le
  have parity := counted_mod_two unsigned unsigned' positive
  obtain ⟨r, left, unsignedRest, rest⟩ := remainder_eq unsigned unsigned' positive.ne'
  rw [← Int.natCast_floor_eq_floor above, Int.cast_natCast] at rest
  have counted : progress animation time =
      if value (elapsed animation time) / value animation.duration < 2 ^ 1024 - 2 ^ 970 then
        .ok (along animation.direction (⌊value (elapsed animation time) / value animation.duration⌋₊ +
          if CountsAstray (value (elapsed animation time) / value animation.duration) then 1 else 0)
          (r / animation.duration))
      else .error .tooLarge := by
    rw [progress_eq running left, floor_div_eq unsigned unsigned' positive]
    split
    · unfold along
      rw [← isReversed_congr _ parity]
      rfl
    · rfl
  refine ⟨⌊value (elapsed animation time) / value animation.duration⌋₊, r, unsignedRest, ?_, ?_, counted, ?_⟩
  · rw [rest]
    ring
  · have next := Nat.lt_floor_add_one (value (elapsed animation time) / value animation.duration)
    rw [div_lt_iff₀ positive] at next
    rw [rest]
    linarith
  · rw [counted]
    split
    · rename_i countable
      rw [Except.ok.injEq, and_iff_right countable]
      split
      · rename_i astray
        rw [imp_iff_right astray]
        exact along_next_iff ..
      · rename_i counts
        rw [add_zero]
        exact iff_of_true rfl fun astray => absurd astray counts
    · rename_i beyond
      exact iff_of_false (fun same => nomatch same) fun all => beyond all.1

theorem progress_of_cycle_tenths :
    let turning : Animation :=
      { selectorGroup := ".a".toList, name := "k".toList, duration := 0.1, direction := "alternate".toList }
    isFinite turning.duration ∧ 0.0 < turning.duration ∧ isFinite (elapsed turning 0.9) ∧
      ∃ r, Unsigned r ∧ value (elapsed turning 0.9) = 8 * value turning.duration + value r ∧
        value r < value turning.duration ∧ progress turning 0.9 = .ok (1.0 - r / turning.duration) := by
  intro turning
  have finite : isFinite turning.duration := by decide +kernel
  have running : 0.0 < turning.duration := by decide +kernel
  have within : isFinite (elapsed turning 0.9) := by decide +kernel
  have countable : value (elapsed turning 0.9) / value turning.duration < 2 ^ 1024 - 2 ^ 970 := by decide +kernel
  have astray : CountsAstray (value (elapsed turning 0.9) / value turning.duration) := by decide +kernel
  have contained : 8 * value turning.duration ≤ value (elapsed turning 0.9) := by decide +kernel
  have short : value (elapsed turning 0.9) < 9 * value turning.duration := by decide +kernel
  obtain ⟨q, r, unsigned, same, less, counted, -⟩ := progress_of_cycle finite running within
  have positive := value_pos finite running
  have above := value_nonneg unsigned
  have most : (q : ℚ) < (9 : Nat) := lt_of_mul_lt_mul_right (by push_cast; linarith) positive.le
  have least : ((7 : Nat) : ℚ) < q := lt_of_mul_lt_mul_right (by push_cast; linarith) positive.le
  have eight : q = 8 := by
    have most' := Nat.cast_lt.mp most
    have least' := Nat.cast_lt.mp least
    omega
  subst eight
  rw [if_pos countable, if_pos astray] at counted
  exact ⟨finite, running, within, r, unsigned, same, less, counted⟩

end Flipbook.Timeline
