import Flipbook.Number.Scalar
import Flipbook.Proofs.Number.QuotientFloor

namespace Flipbook.Binary64

def halfUp (c : ℚ) : Int := ⌊rounding (c + 1 / 2)⌋

/-- By how much the nearest integers of two opposite numbers miss each other: one where both halves go up, and at the
    double next to one half; two at odd numbers to which no half can be added any more. -/
def tilt (v : ℚ) : Int :=
  if 2 ^ 52 ≤ v then 2 * (⌊v⌋ % 2) else if Int.fract v = 1 / 2 ∨ v = 1 / 2 - 1 / 2 ^ 54 then 1 else 0

theorem halfUp_neg (c : ℚ) : halfUp (-c) = -⌈rounding (c - 1 / 2)⌉ := by
  have opposite : -c + 1 / 2 = -(c - 1 / 2) := by ring
  unfold halfUp
  rw [opposite, rounding_neg, Int.floor_neg]

theorem le_of_lt_two_zpow {v : ℚ} {k : Int} (double : IsDouble v) (less : v < 2 ^ k) : v ≤ 2 ^ k - 2 ^ (k - 53) := by
  obtain ⟨mantissa, exponent, short, -, rfl⟩ := double
  have unit := two_zpow_pos (k - 53)
  have size : (2 : ℚ) ^ k = 2 ^ 53 * 2 ^ (k - 53) := by
    rw [zpow_sub₀ two_ne_zero]
    exact (mul_div_cancel₀ _ (by norm_num)).symm
  have most (n : Int) (below : n < 2 ^ 53) : (n : ℚ) * 2 ^ (k - 53) ≤ 2 ^ k - 2 ^ (k - 53) := by
    have below' : (n : ℚ) ≤ 2 ^ 53 - 1 := by exact_mod_cast Int.le_sub_one_of_lt below
    have scaled := mul_le_mul_of_nonneg_right below' unit.le
    linarith
  rcases le_total (k - 53) exponent with fine | coarse
  · have multiple : (mantissa : ℚ) * 2 ^ exponent =
        (mantissa * 2 ^ (exponent - (k - 53)).toNat : Int) * 2 ^ (k - 53) := by
      rw [two_zpow_split fine]
      push_cast
      ring
    rw [multiple, size, mul_lt_mul_iff_left₀ unit] at less
    rw [multiple]
    exact most _ (by exact_mod_cast less)
  · refine le_trans ?_ (most |mantissa| short)
    rw [Int.cast_abs]
    refine mul_le_mul (le_abs_self _) ?_ (two_zpow_pos exponent).le (abs_nonneg _)
    exact zpow_le_zpow_right₀ (by norm_num) coarse

variable {v : ℚ}

theorem halfUp_neg_of_lt_half (above : 0 ≤ v) (less : v < 1 / 2) : halfUp (-v) = 0 := by
  have half : IsDouble (1 / 2) := ⟨1, -1, by decide, by decide, by norm_num⟩
  have low : 0 ≤ rounding (-v + 1 / 2) := le_rounding isDouble_zero (by linarith)
  have high : rounding (-v + 1 / 2) ≤ 1 / 2 := rounding_le half (by linarith)
  exact Int.floor_eq_zero_iff.mpr ⟨low, high.trans_lt (by norm_num)⟩

theorem halfUp_of_lt_half (double : IsDouble v) (above : 0 ≤ v) (less : v < 1 / 2) :
    halfUp v = if v = 1 / 2 - 1 / 2 ^ 54 then 1 else 0 := by
  have low : 0 ≤ rounding (v + 1 / 2) := le_rounding isDouble_zero (by linarith)
  have high : rounding (v + 1 / 2) ≤ 1 := rounding_le isDouble_one (by linarith)
  have most := le_of_lt_two_zpow (k := -1) double (by norm_num; linarith)
  have reaches : rounding (v + 1 / 2) < 1 ↔ v < 1 / 2 - 1 / 2 ^ 54 := by
    have threshold := rounding_lt_zpow_iff (v := v + 1 / 2) (show -1074 ≤ -53 by decide)
    norm_num at threshold
    rw [threshold]
    norm_num
    constructor <;> intro <;> linarith
  norm_num at most
  unfold halfUp
  split
  · rename_i next
    have reached : 1 ≤ rounding (v + 1 / 2) := not_lt.mp fun short => (reaches.mp short).ne next
    rw [le_antisymm high reached, Int.floor_one]
  · rename_i other
    have short := reaches.mpr (lt_of_le_of_ne (by norm_num; linarith) other)
    exact Int.floor_eq_zero_iff.mpr ⟨low, short⟩

theorem isDouble_of_multiple {w : ℚ} {n k : Int} (low : -1074 ≤ k) (same : w = n * 2 ^ k) (short : |w| < 2 ^ (k + 53)) :
    IsDouble w := by
  refine ⟨n, k, ?_, low, same⟩
  rw [same, abs_mul, abs_of_pos (two_zpow_pos k), ← lt_div_iff₀ (two_zpow_pos k), ← zpow_sub₀ two_ne_zero,
    add_sub_cancel_left] at short
  exact_mod_cast short

theorem exists_multiple (double : IsDouble v) : ∃ n : Int, v = n * 2 ^ lastPlace v :=
  ⟨_, (rounding_of_isDouble double).symm⟩

theorem lastPlace_neg_of_lt (above : 1 / 2 ≤ v) (less : v < 2 ^ 52) : -53 ≤ lastPlace v ∧ lastPlace v ≤ -1 := by
  have positive : 0 < v := by linarith
  have low := le_lastPlace (k := -1) positive (by norm_num; linarith)
  refine ⟨by omega, ?_⟩
  rcases lastPlace_eq_or_le positive.ne' with least | full
  · omega
  · rw [abs_of_pos positive] at full
    have order := (zpow_lt_zpow_iff_right₀ (by norm_num)).mp (full.trans_lt (less.trans_eq (zpow_natCast 2 52).symm))
    push_cast at order
    omega

theorem half_eq {k : Int} (less : k ≤ -1) : (1 / 2 : ℚ) = ((2 ^ (-1 - k).toNat : Int) : ℚ) * 2 ^ k := by
  have split := two_zpow_split less
  push_cast
  rw [← split]
  norm_num

theorem halfUp_neg_of_half_le (double : IsDouble v) (above : 1 / 2 ≤ v) (less : v < 2 ^ 52) :
    halfUp (-v) = ⌊-v + 1 / 2⌋ := by
  obtain ⟨-, high⟩ := lastPlace_neg_of_lt above less
  obtain ⟨n, same⟩ := exists_multiple double
  have short := abs_lt_of_lastPlace v
  have half := half_eq high
  rw [abs_of_nonneg (by linarith)] at short
  have exact_ : IsDouble (-v + 1 / 2) := by
    apply isDouble_of_multiple (n := -n + 2 ^ (-1 - lastPlace v).toNat) (low_lastPlace v)
    · rw [Int.cast_add, add_mul, ← half, Int.cast_neg, neg_mul, ← same]
    · rw [abs_lt]
      constructor <;> linarith
  unfold halfUp
  rw [rounding_of_isDouble exact_]

theorem halfUp_of_half_le (double : IsDouble v) (above : 1 / 2 ≤ v) (less : v < 2 ^ 52) : halfUp v = ⌊v + 1 / 2⌋ := by
  obtain ⟨low, high⟩ := lastPlace_neg_of_lt above less
  obtain ⟨n, same⟩ := exists_multiple double
  have atMost := Int.floor_le (v + 1 / 2)
  have below := Int.lt_floor_add_one (v + 1 / 2)
  have most := le_of_lt_two_zpow (k := 52) double (by exact_mod_cast less)
  norm_num at most
  have some : 0 < ⌊v + 1 / 2⌋ := Int.floor_pos.mpr (by linarith)
  have limit : ⌊v + 1 / 2⌋ ≤ 2 ^ 52 := by
    have bound : (⌊v + 1 / 2⌋ : ℚ) ≤ 2 ^ 52 := by linarith
    exact_mod_cast bound
  unfold halfUp
  generalize ⌊v + 1 / 2⌋ = whole at *
  apply Int.floor_eq_iff.mpr
  have double' : IsDouble whole := ⟨whole, 0, by rw [abs_of_pos some]; omega, by decide, by simp⟩
  refine ⟨le_rounding double' atMost, ?_⟩
  rcases le_or_gt (v + 1 / 2) (whole + 1 / 2) with near | far
  · rcases limit.lt_or_eq with inside | rfl
    · have middle : IsDouble (whole + 1 / 2) := by
        refine ⟨2 * whole + 1, -1, by rw [abs_of_pos (by omega)]; omega, by decide, ?_⟩
        push_cast
        rw [zpow_neg_one]
        ring
      exact (rounding_le middle near).trans_lt (by linarith)
    · have reached : v + 1 / 2 ≤ ((2 ^ 52 : Int) : ℚ) := by
        push_cast
        linarith
      exact (rounding_le double' reached).trans_lt (by linarith)
  · -- no power of two stands between the number and the sum
    have short := abs_lt_of_lastPlace v
    rw [abs_of_nonneg (by linarith)] at short
    have half := half_eq high
    obtain ⟨m, place⟩ : ∃ m : Nat, lastPlace v + 53 = m := ⟨(lastPlace v + 53).toNat, by omega⟩
    have next : (whole + 1 : ℚ) ≤ 2 ^ (lastPlace v + 53) := by
      rw [place, zpow_natCast] at short ⊢
      have order : (whole : ℚ) < (2 ^ m : Int) := by
        push_cast
        linarith
      have order' := Int.add_one_le_of_lt (Int.cast_lt.mp order)
      exact_mod_cast order'
    have exact_ : IsDouble (v + 1 / 2) := by
      apply isDouble_of_multiple (n := n + 2 ^ (-1 - lastPlace v).toNat) (low_lastPlace v)
      · rw [Int.cast_add, add_mul, ← half, ← same]
      · rw [abs_of_nonneg (by linarith)]
        linarith
    rw [rounding_of_isDouble exact_]
    exact below

theorem exists_whole (double : IsDouble v) (great : 2 ^ 52 ≤ v) :
    0 ≤ lastPlace v ∧ ∃ n : Int, v = n ∧ (lastPlace v = 0 ∨ n % 2 = 0) := by
  have positive : 0 < v := lt_of_lt_of_le (by norm_num) great
  have low := le_lastPlace (k := 52) positive (by exact_mod_cast great)
  obtain ⟨n, same⟩ := exists_multiple double
  refine ⟨by omega, n * 2 ^ (lastPlace v).toNat, ?_, ?_⟩
  · have power := two_zpow_split (show 0 ≤ lastPlace v by omega)
    rw [sub_zero, zpow_zero, mul_one] at power
    rw [power] at same
    exact_mod_cast same
  · rcases Nat.eq_zero_or_pos (lastPlace v).toNat with none | some
    · exact .inl (by omega)
    · have split : (2 : Int) ^ (lastPlace v).toNat = 2 ^ ((lastPlace v).toNat - 1) * 2 := by
        rw [← pow_succ]
        congr 1
        omega
      rw [split, ← mul_assoc]
      exact .inr (Int.mul_emod_left _ 2)

theorem lastPlace_le_lastPlace {w : ℚ} (positive : 0 < w) (less : w ≤ v) : lastPlace w ≤ lastPlace v := by
  have log := Int.log_mono_right (b := 2) positive less
  unfold lastPlace
  rw [abs_of_pos positive, abs_of_pos (positive.trans_le less)]
  omega

theorem abs_half_lt {k : Int} (some : 0 < k) : |(1 / 2 : ℚ) / 2 ^ k| < 1 / 2 := by
  have more : (1 : ℚ) < 2 ^ k := one_lt_zpow₀ (by norm_num) some
  rw [abs_of_pos (div_pos (by norm_num) (two_zpow_pos k)), div_lt_iff₀ (two_zpow_pos k)]
  linarith

theorem rounding_add_half {n : Int} (double : IsDouble n) (great : (2 : ℚ) ^ 52 ≤ n) :
    rounding (n + 1 / 2) = (n + n % 2 : Int) := by
  obtain ⟨ones, m, whole, even⟩ := exists_whole double great
  obtain rfl := Int.cast_inj.mp whole
  have positive : (0 : ℚ) < n := lt_of_lt_of_le (by norm_num) great
  have short := abs_lt_of_lastPlace (n : ℚ)
  have full := lastPlace_eq_or_le positive.ne'
  rw [abs_of_pos positive] at short full
  have placed : lastPlace (n + 1 / 2 : ℚ) = lastPlace n := by
    apply lastPlace_eq_of_pos (by linarith) (low_lastPlace _)
    · obtain ⟨m, place⟩ : ∃ m : Nat, lastPlace (n : ℚ) + 53 = m := ⟨(lastPlace (n : ℚ) + 53).toNat, by omega⟩
      rw [place, zpow_natCast] at short ⊢
      have next : (n : ℚ) + 1 ≤ 2 ^ m := by exact_mod_cast Int.add_one_le_of_lt (by exact_mod_cast short)
      linarith
    · exact full.imp_right fun reached => by linarith
  obtain ⟨k, same⟩ := exists_multiple double
  have unit := two_zpow_pos (lastPlace (n : ℚ))
  unfold rounding
  rw [placed]
  generalize lastPlace (n : ℚ) = last at *
  have scaled : (n + 1 / 2 : ℚ) / 2 ^ last = k + 1 / 2 / 2 ^ last := by
    rw [same, add_div, mul_div_cancel_right₀ _ unit.ne']
  rw [scaled]
  rcases ones.lt_or_eq with some | rfl
  · rw [nearestEven_add (abs_half_lt some), ← same, even.resolve_left some.ne', add_zero]
  · rw [zpow_zero, mul_one] at same
    obtain rfl := Int.cast_inj.mp same
    rw [zpow_zero, div_one, nearestEven_add_half, mul_one]

theorem ceil_rounding_sub_half {n : Int} (double : IsDouble n) (great : (2 : ℚ) ^ 52 ≤ n) :
    ⌈rounding (n - 1 / 2)⌉ = n - n % 2 := by
  obtain ⟨-, m, whole, even⟩ := exists_whole double great
  obtain rfl := Int.cast_inj.mp whole
  have positive : (0 : ℚ) < n - 1 / 2 := by linarith
  have order := lastPlace_le_lastPlace positive (show (n - 1 / 2 : ℚ) ≤ n by linarith)
  have low := le_lastPlace (k := 51) positive (by norm_num at great ⊢; linarith)
  have short := abs_lt_of_lastPlace (n - 1 / 2 : ℚ)
  rw [abs_of_pos positive] at short
  -- the number is a multiple of the last place of the difference too
  obtain ⟨k, same⟩ : ∃ k : Int, (n : ℚ) = k * 2 ^ lastPlace (n - 1 / 2 : ℚ) := by
    obtain ⟨k, same⟩ := exists_multiple double
    rw [two_zpow_split order] at same
    exact ⟨k * 2 ^ (lastPlace (n : ℚ) - lastPlace (n - 1 / 2 : ℚ)).toNat, by push_cast; linarith⟩
  unfold rounding
  generalize lastPlace (n - 1 / 2 : ℚ) = last at *
  have unit := two_zpow_pos last
  have scaled : (n - 1 / 2 : ℚ) / 2 ^ last = k + -(1 / 2 / 2 ^ last) := by
    rw [same, sub_div, mul_div_cancel_right₀ _ unit.ne', sub_eq_add_neg]
  rcases lt_trichotomy last 0 with fine | rfl | coarse
  · obtain rfl : last = -1 := by omega
    have integer : (n - 1 / 2 : ℚ) / 2 ^ (-1 : Int) = ((k - 1 : Int) : ℚ) := by
      rw [scaled]
      push_cast
      norm_num
      ring
    have top : n = 2 ^ 52 := by
      norm_num at short great
      have bound : (n : ℚ) < (4503599627370497 : Int) := by
        push_cast
        linarith
      have bound' := Int.cast_lt.mp bound
      have great' : (4503599627370496 : Int) ≤ n := by exact_mod_cast great
      omega
    rw [integer, nearestEven_intCast, ← integer, div_mul_cancel₀ _ unit.ne', top]
    decide +kernel
  · rw [zpow_zero, mul_one] at same
    obtain rfl := Int.cast_inj.mp same
    rw [zpow_zero, div_one, nearestEven_sub_half, mul_one, Int.ceil_intCast]
  · have small := abs_half_lt coarse
    rw [← abs_neg] at small
    rw [scaled, nearestEven_add small, ← same, Int.ceil_intCast, even.resolve_left (by omega), sub_zero]

theorem floor_add_floor_neg : ⌊v + 1 / 2⌋ + ⌊-v + 1 / 2⌋ = if Int.fract v = 1 / 2 then 1 else 0 := by
  have split := Int.floor_add_fract v
  have above := Int.fract_nonneg v
  have below := Int.fract_lt_one v
  rcases lt_trichotomy (Int.fract v) (1 / 2) with less | tie | more
  · have right : ⌊v + 1 / 2⌋ = ⌊v⌋ := Int.floor_eq_iff.mpr ⟨by linarith, by linarith⟩
    have left : ⌊-v + 1 / 2⌋ = -⌊v⌋ := Int.floor_eq_iff.mpr ⟨by push_cast; linarith, by push_cast; linarith⟩
    rw [left, right, if_neg less.ne, add_neg_cancel]
  · have right : ⌊v + 1 / 2⌋ = ⌊v⌋ + 1 := Int.floor_eq_iff.mpr ⟨by push_cast; linarith, by push_cast; linarith⟩
    have left : ⌊-v + 1 / 2⌋ = -⌊v⌋ := Int.floor_eq_iff.mpr ⟨by push_cast; linarith, by push_cast; linarith⟩
    rw [left, right, if_pos tie]
    ring
  · have right : ⌊v + 1 / 2⌋ = ⌊v⌋ + 1 := Int.floor_eq_iff.mpr ⟨by push_cast; linarith, by push_cast; linarith⟩
    have left : ⌊-v + 1 / 2⌋ = -⌊v⌋ - 1 := Int.floor_eq_iff.mpr ⟨by push_cast; linarith, by push_cast; linarith⟩
    rw [left, right, if_neg more.ne']
    ring

theorem halfUp_add_of_nonneg (double : IsDouble v) (above : 0 ≤ v) : halfUp v + halfUp (-v) = tilt v := by
  unfold tilt
  rcases lt_or_ge v (1 / 2) with little | some
  · have own : Int.fract v = v := Int.fract_eq_self.mpr ⟨above, by linarith⟩
    rw [halfUp_neg_of_lt_half above little, halfUp_of_lt_half double above little, own, add_zero,
      if_neg (show ¬2 ^ 52 ≤ v by linarith)]
    simp only [little.ne, false_or]
  rcases lt_or_ge v (2 ^ 52) with less | great
  · have apart : v ≠ 1 / 2 - 1 / 2 ^ 54 := by linarith
    rw [halfUp_neg_of_half_le double some less, halfUp_of_half_le double some less, floor_add_floor_neg,
      if_neg less.not_ge]
    simp only [apart, or_false]
  · obtain ⟨-, n, rfl, -⟩ := exists_whole double great
    rw [halfUp_neg, ceil_rounding_sub_half double great, halfUp, rounding_add_half double great, if_pos great,
      Int.floor_intCast, Int.floor_intCast]
    ring

/-- The nearest integers of opposite numbers miss each other by the tilt of their magnitude. -/
theorem halfUp_add_halfUp_neg (double : IsDouble v) : halfUp v + halfUp (-v) = tilt |v| := by
  rcases le_total 0 v with above | below
  · rw [abs_of_nonneg above]
    exact halfUp_add_of_nonneg double above
  · have mirrored := halfUp_add_of_nonneg double.neg (neg_nonneg.mpr below)
    rw [abs_of_nonpos below, ← mirrored, neg_neg, add_comm]

theorem tilt_cases (double : IsDouble v) (above : 0 ≤ v) :
    tilt v = 0 ∨ tilt v = 1 ∧ v < 2 ^ 52 ∨ tilt v = 2 ∧ v < 2 ^ 53 := by
  unfold tilt
  split
  · rename_i great
    obtain ⟨-, n, rfl, ones | even⟩ := exists_whole double great
    · have short := abs_lt_of_lastPlace (n : ℚ)
      rw [ones, abs_of_nonneg above] at short
      rw [Int.floor_intCast]
      rcases Int.emod_two_eq_zero_or_one n with even | odd
      · exact .inl (by omega)
      · exact .inr (.inr ⟨by omega, by exact_mod_cast short⟩)
    · rw [Int.floor_intCast]
      exact .inl (by omega)
  · rename_i less
    split
    · exact .inr (.inl ⟨rfl, not_le.mp less⟩)
    · exact .inl rfl

end Flipbook.Binary64
