import Flipbook.Timing.Bezier
import Mathlib.Data.Rat.Floor
import Mathlib.Tactic.GCongr
import Mathlib.Tactic.Linarith
import Mathlib.Tactic.NormNum
import Mathlib.Tactic.Positivity
import Mathlib.Tactic.Ring

namespace Flipbook

namespace Cubic

theorem tolerance_eq : (tolerance : Rat) = 1 / 10 ^ 7 := by
  have literal : (tolerance : Rat) = (1e-7 : Rat) := rfl
  rw [literal]
  norm_num

theorem isSmall_iff {x : Rat} : isSmall x ↔ |x| < 1 / 10 ^ 7 := by
  have unfolded : isSmall x = (decide (x < tolerance) && decide ((0.0 : Rat) - tolerance < x)) := rfl
  rw [unfolded, Bool.and_eq_true, decide_eq_true_eq, decide_eq_true_eq, tolerance_eq, abs_lt]
  norm_num
  exact and_comm

theorem ofControl_at (p q u : Rat) :
    (ofControl p q).at u = 3 * p * (u * (1 - u) ^ 2) + 3 * q * (u ^ 2 * (1 - u)) + u ^ 3 := by
  have one : (1.0 : Rat) = 1 := by norm_num
  have three : (3.0 : Rat) = 3 := by norm_num
  have unfolded : (ofControl p q).at u =
      (((1.0 - 3.0 * p - (3.0 * (q - p) - 3.0 * p)) * u + (3.0 * (q - p) - 3.0 * p)) * u + 3.0 * p) * u := rfl
  rw [unfolded, one, three]
  ring

theorem ofControl_at_zero (p q : Rat) : (ofControl p q).at 0 = 0 := by
  rw [ofControl_at]
  ring

theorem ofControl_at_one (p q : Rat) : (ofControl p q).at 1 = 1 := by
  rw [ofControl_at]
  ring

theorem ofControl_rise_le {p q : Rat} (zero_le_p : 0 ≤ p) (p_le_one : p ≤ 1) (zero_le_q : 0 ≤ q) (q_le_one : q ≤ 1)
    {u v : Rat} (zero_le : 0 ≤ u) (le : u ≤ v) (le_one : v ≤ 1) :
    (ofControl p q).at v - (ofControl p q).at u ≤ 3 * (v - u) := by
  have zero_le_v : 0 ≤ v := zero_le.trans le
  have u_le_one : u ≤ 1 := le.trans le_one
  obtain ⟨slope, slope_eq⟩ : ∃ slope, slope = u ^ 2 + u * v + v ^ 2 := ⟨_, rfl⟩
  have twice : 2 * slope ≤ 3 * (u + v) := by
    rw [slope_eq]
    nlinarith [mul_nonneg zero_le (sub_nonneg.mpr u_le_one), mul_nonneg zero_le_v (sub_nonneg.mpr le_one),
      mul_nonneg zero_le (sub_nonneg.mpr le_one), mul_nonneg zero_le_v (sub_nonneg.mpr u_le_one)]
  have neither : 0 ≤ 3 - slope := by linarith
  have first : 0 ≤ 6 * (u + v) - 4 * slope := by linarith
  have second : 0 ≤ 3 - 3 * (u + v) + 2 * slope := by
    rw [slope_eq]
    nlinarith [sq_nonneg (u - v), sq_nonneg (u + v - 1)]
  have both : 0 ≤ 3 * (u + v) - slope := by linarith
  have corners : 0 ≤ (1 - p) * (1 - q) * (3 - slope) + p * (1 - q) * (6 * (u + v) - 4 * slope) +
      (1 - p) * q * (3 - 3 * (u + v) + 2 * slope) + p * q * (3 * (u + v) - slope) := by
    have p' := sub_nonneg.mpr p_le_one
    have q' := sub_nonneg.mpr q_le_one
    positivity
  have rise : (ofControl p q).at v - (ofControl p q).at u = 3 * (v - u) - (v - u) *
      ((1 - p) * (1 - q) * (3 - slope) + p * (1 - q) * (6 * (u + v) - 4 * slope) +
        (1 - p) * q * (3 - 3 * (u + v) + 2 * slope) + p * q * (3 * (u + v) - slope)) := by
    rw [ofControl_at, ofControl_at, slope_eq]
    ring
  rw [rise]
  exact sub_le_self _ (mul_nonneg (sub_nonneg.mpr le) corners)

theorem near_of_newton? {f : Cubic Rat} {x u v : Rat} {steps : Nat} (found : f.newton? x steps u = some v) :
    |f.at v - x| < 1 / 10 ^ 7 := by
  induction steps generalizing u with
  | zero => cases found
  | succ steps ih =>
    unfold newton? at found
    dsimp only at found
    split at found
    · rename_i small
      cases found
      exact isSmall_iff.mp small
    · split at found
      · cases found
      · exact ih found

end Cubic

namespace Bracket

variable {f : Cubic Rat} {x : Rat} {b : Bracket Rat}

/-- A part of the unit interval where the cubic passes the value, and a guess in it. -/
structure Encloses (f : Cubic Rat) (x : Rat) (b : Bracket Rat) : Prop where
  zero_le : 0 ≤ b.low
  low_le : b.low ≤ b.guess
  le_high : b.guess ≤ b.high
  high_le : b.high ≤ 1
  below : f.at b.low < x
  above : x ≤ f.at b.high

def width (b : Bracket Rat) : Rat := b.high - b.low

def Ends (f : Cubic Rat) (x : Rat) (b : Bracket Rat) : Prop := b.width < 1 / 10 ^ 7 ∨ |f.at b.guess - x| < 1 / 10 ^ 7

theorem narrow_eq (f : Cubic Rat) (x : Rat) (b : Bracket Rat) :
    b.narrow f x = if f.at b.guess < x then ⟨b.guess, b.high, (b.guess + b.high) / 2⟩
      else ⟨b.low, b.guess, (b.low + b.guess) / 2⟩ := by
  have two : (2.0 : Rat) = 2 := by norm_num
  have unfolded : b.narrow f x = if decide (f.at b.guess < x) then ⟨b.guess, b.high, (b.guess + b.high) / 2.0⟩
      else ⟨b.low, b.guess, (b.low + b.guess) / 2.0⟩ := rfl
  rw [unfolded, two]
  simp only [decide_eq_true_eq]

theorem Encloses.narrow (encloses : Encloses f x b) : Encloses f x (b.narrow f x) := by
  obtain ⟨zero_le, low_le, le_high, high_le, below, above⟩ := encloses
  rw [narrow_eq]
  split
  · rename_i early
    exact ⟨zero_le.trans low_le, by linarith, by linarith, high_le, early, above⟩
  · rename_i late
    exact ⟨zero_le, by linarith, by linarith, le_high.trans high_le, below, not_lt.mp late⟩

theorem Encloses.iterate (encloses : Encloses f x b) (n : Nat) : Encloses f x ((Bracket.narrow f x)^[n] b) := by
  induction n with
  | zero => exact encloses
  | succ n ih =>
    rw [Function.iterate_succ_apply']
    exact ih.narrow

theorem Encloses.width_narrow_le (encloses : Encloses f x b) : (b.narrow f x).width ≤ b.width := by
  obtain ⟨-, low_le, le_high, -⟩ := encloses
  rw [narrow_eq]
  unfold width
  split <;> linarith

theorem width_narrow_narrow (f : Cubic Rat) (x : Rat) (b : Bracket Rat) :
    ((b.narrow f x).narrow f x).width = (b.narrow f x).width / 2 := by
  have middle : (b.narrow f x).guess = ((b.narrow f x).low + (b.narrow f x).high) / 2 := by
    rw [narrow_eq]
    split <;> rfl
  rw [narrow_eq f x (b.narrow f x)]
  unfold width
  split
  all_goals
    dsimp only
    rw [middle]
    ring

theorem width_iterate_succ (f : Cubic Rat) (x : Rat) (b : Bracket Rat) (n : Nat) :
    ((Bracket.narrow f x)^[n + 1] b).width = (b.narrow f x).width / 2 ^ n := by
  induction n with
  | zero => simp
  | succ n ih =>
    rw [Function.iterate_succ_apply', Function.iterate_succ_apply', width_narrow_narrow,
      ← Function.iterate_succ_apply' (Bracket.narrow f x) n b, ih, pow_succ, div_div]

theorem close?_succ (f : Cubic Rat) (x : Rat) (steps : Nat) (b : Bracket Rat) :
    b.close? f x (steps + 1) = if 1 / 10 ^ 7 ≤ b.width then
      if |f.at b.guess - x| < 1 / 10 ^ 7 then some b.guess else (b.narrow f x).close? f x steps
    else some b.guess := by
  have unfolded : b.close? f x (steps + 1) = if decide (Cubic.tolerance ≤ b.width) then
      if Cubic.isSmall (f.at b.guess - x) then some b.guess else (b.narrow f x).close? f x steps
    else some b.guess := rfl
  rw [unfolded]
  simp only [decide_eq_true_eq, Cubic.isSmall_iff, Cubic.tolerance_eq]

theorem close?_of_ends (ends : Ends f x b) (steps : Nat) : b.close? f x (steps + 1) = some b.guess := by
  rw [close?_succ]
  rcases ends with closed | solved
  · rw [if_neg (not_le.mpr closed)]
  · rw [if_pos solved, ite_self]

theorem close?_of_not_ends (goesOn : ¬Ends f x b) (steps : Nat) :
    b.close? f x (steps + 1) = (b.narrow f x).close? f x steps := by
  obtain ⟨wide, unsolved⟩ := not_or.mp goesOn
  rw [close?_succ, if_pos (not_lt.mp wide), if_neg unsolved]

theorem close?_eq_of_first {n steps : Nat} (within : n < steps)
    (before : ∀ m < n, ¬Ends f x ((Bracket.narrow f x)^[m] b)) (ends : Ends f x ((Bracket.narrow f x)^[n] b)) :
    b.close? f x steps = some ((Bracket.narrow f x)^[n] b).guess := by
  induction n generalizing steps b with
  | zero =>
    obtain ⟨steps, rfl⟩ := Nat.exists_eq_add_one_of_ne_zero (Nat.ne_of_gt within)
    exact close?_of_ends ends steps
  | succ n ih =>
    obtain ⟨steps, rfl⟩ := Nat.exists_eq_add_one_of_ne_zero (Nat.ne_of_gt (Nat.zero_lt_of_lt within))
    have goesOn : ¬Ends f x b := before 0 (Nat.succ_pos n)
    rw [close?_of_not_ends goesOn, Function.iterate_succ_apply]
    exact ih (Nat.lt_of_succ_lt_succ within) (fun m less => before (m + 1) (Nat.succ_lt_succ less)) ends

/-- The halvings after which no part of the unit interval is left open. -/
def enough : Nat := 25

theorem Encloses.ends (encloses : Encloses f x b) : Ends f x ((Bracket.narrow f x)^[enough] b) := by
  have unit : (b.narrow f x).width ≤ 1 := by
    have inside := encloses.width_narrow_le
    have bounded : b.width ≤ 1 := by
      unfold width
      linarith [encloses.zero_le, encloses.high_le]
    exact inside.trans bounded
  left
  calc ((Bracket.narrow f x)^[enough] b).width = (b.narrow f x).width / 2 ^ 24 := width_iterate_succ f x b 24
    _ ≤ 1 / 2 ^ 24 := by gcongr
    _ < 1 / 10 ^ 7 := by norm_num

theorem Encloses.exists_close? (encloses : Encloses f x b) :
    ∃ n ≤ enough, Ends f x ((Bracket.narrow f x)^[n] b) ∧
      ∀ steps > n, b.close? f x steps = some ((Bracket.narrow f x)^[n] b).guess := by
  classical
  have eventually : ∃ n, Ends f x ((Bracket.narrow f x)^[n] b) := ⟨enough, encloses.ends⟩
  have ends := Nat.find_spec eventually
  have before {m : Nat} (less : m < Nat.find eventually) := Nat.find_min eventually less
  refine ⟨Nat.find eventually, Nat.le_of_not_lt fun late => before late encloses.ends, ends, fun steps within => ?_⟩
  exact close?_eq_of_first within (fun m => before) ends

theorem Encloses.near (encloses : Encloses f x b) (ends : Ends f x b)
    (rise : ∀ u v, 0 ≤ u → u ≤ v → v ≤ 1 → f.at v - f.at u ≤ 3 * (v - u)) :
    |f.at b.guess - x| ≤ 3 / 10 ^ 7 := by
  rcases ends with closed | solved
  · obtain ⟨zero_le, low_le, le_high, high_le, below, above⟩ := encloses
    have fromLow := rise b.low b.guess zero_le low_le (le_high.trans high_le)
    have toHigh := rise b.guess b.high (zero_le.trans low_le) le_high high_le
    unfold width at closed
    rw [abs_le]
    constructor <;> linarith
  · linarith

end Bracket

namespace Bezier

theorem encloses_unit (curve : Bezier Rat) {x : Rat} (positive : 0 < x) (less : x < 1) :
    Bracket.Encloses curve.time x ⟨0.0, 1.0, x⟩ where
  zero_le := by norm_num
  low_le := by norm_num; exact positive.le
  le_high := by norm_num; exact less.le
  high_le := by norm_num
  below := by
    have zero : (0.0 : Rat) = 0 := by norm_num
    rw [zero, time, Cubic.ofControl_at_zero]
    exact positive
  above := by
    have one : (1.0 : Rat) = 1 := by norm_num
    rw [one, time, Cubic.ofControl_at_one]
    exact less.le

/-- The interval after `n` halvings, if the search goes on so long. -/
def bracket (curve : Bezier Rat) (x : Rat) (n : Nat) : Bracket Rat := (Bracket.narrow curve.time x)^[n] ⟨0.0, 1.0, x⟩

/-- If the control points lie within the time of the curve, the search for a time between 0 and 1 ends, and the
    time of the parameter that it gives is near. Where Newton's steps fail, the halvings stay in the unit interval
    and end after 25 of them at the latest, however many are allowed. -/
theorem solve_within (curve : Bezier Rat) (first : 0 ≤ curve.x1 ∧ curve.x1 ≤ 1) (second : 0 ≤ curve.x2 ∧ curve.x2 ≤ 1)
    {x : Rat} (positive : 0 < x) (less : x < 1) :
    curve.time.solve? x = some (curve.solve x) ∧ |curve.time.at (curve.solve x) - x| ≤ 4 / 10 ^ 7 ∧
      (curve.time.newton? x 8 x = none →
        (∀ n, 0 ≤ (curve.bracket x n).guess ∧ (curve.bracket x n).guess ≤ 1) ∧
          ∃ n ≤ 25, curve.solve x = (curve.bracket x n).guess ∧
            ∀ steps > n, Bracket.close? curve.time x steps ⟨0.0, 1.0, x⟩ = some (curve.solve x)) := by
  have encloses := curve.encloses_unit positive less
  -- Both ways to a solution, and what each says of it.
  obtain ⟨u, solved, near, halved⟩ : ∃ u, curve.time.solve? x = some u ∧ |curve.time.at u - x| ≤ 4 / 10 ^ 7 ∧
      (curve.time.newton? x 8 x = none → ∃ n ≤ 25, u = (curve.bracket x n).guess ∧
        ∀ steps > n, Bracket.close? curve.time x steps ⟨0.0, 1.0, x⟩ = some u) := by
    unfold Cubic.solve?
    cases newton : curve.time.newton? x 8 x with
    | some u =>
      have near := Cubic.near_of_newton? newton
      exact ⟨u, rfl, by linarith, fun none => by cases none⟩
    | none =>
      obtain ⟨n, early, ends, found⟩ := encloses.exists_close?
      have near := (encloses.iterate n).near ends fun u v zero_le le le_one =>
        Cubic.ofControl_rise_le first.1 first.2 second.1 second.2 zero_le le le_one
      refine ⟨_, found Bracket.steps (early.trans_lt (by decide)), ?_, fun _ => ⟨n, early, rfl, found⟩⟩
      exact near.trans (by norm_num)
  have same : curve.solve x = u := by
    unfold solve
    rw [solved]
    rfl
  rw [same]
  refine ⟨solved, near, fun newton => ⟨fun n => ?_, halved newton⟩⟩
  have inside := encloses.iterate n
  exact ⟨inside.zero_le.trans inside.low_le, inside.le_high.trans inside.high_le⟩

theorem solve_within_flat :
    let curve : Bezier Rat := ⟨1, 0, 0, 1⟩
    let x : Rat := 50005 / 100000
    ((0 : Rat) ≤ 1 ∧ (1 : Rat) ≤ 1) ∧ ((0 : Rat) ≤ 0 ∧ (0 : Rat) ≤ 1) ∧ 0 < x ∧ x < 1 ∧
      curve.time.newton? x 8 x = none ∧
      curve.time.solve? x = some (curve.solve x) ∧ |curve.time.at (curve.solve x) - x| ≤ 4 / 10 ^ 7 ∧
      (∀ n, 0 ≤ (curve.bracket x n).guess ∧ (curve.bracket x n).guess ≤ 1) ∧
      ∃ n ≤ 25, curve.solve x = (curve.bracket x n).guess ∧
        ∀ steps > n, Bracket.close? curve.time x steps ⟨0.0, 1.0, x⟩ = some (curve.solve x) := by
  intro curve x
  have first : (0 : Rat) ≤ 1 ∧ (1 : Rat) ≤ 1 := by norm_num
  have second : (0 : Rat) ≤ 0 ∧ (0 : Rat) ≤ 1 := by norm_num
  have positive : 0 < x := by decide +kernel
  have less : x < 1 := by decide +kernel
  have newton : curve.time.newton? x 8 x = none := by decide +kernel
  obtain ⟨solved, near, halved⟩ := solve_within curve first second positive less
  exact ⟨first, second, positive, less, newton, solved, near, halved newton⟩

end Bezier
end Flipbook
