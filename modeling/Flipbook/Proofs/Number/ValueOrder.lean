import Flipbook.Proofs.Number.QuotientFloor

namespace Flipbook.Binary64

open Float.Model (UnpackedFloat)
open Float.Model.UnpackedFloat

structure Magnitude (mantissa : Nat) (exponent : Int) : Prop where
  short : mantissa < 2 ^ 53
  low : -1074 ≤ exponent
  full : exponent = -1074 ∨ 2 ^ 52 ≤ mantissa

def magnitudePlace (mantissa : Nat) (exponent : Int) : Nat := (exponent + 1074).toNat * 2 ^ 52 + mantissa

section Magnitudes

variable {mantissa mantissa' : Nat} {exponent exponent' : Int}

theorem mul_zpow_lt (short : mantissa < 2 ^ 53) (full : 2 ^ 52 ≤ mantissa') (less : exponent < exponent') :
    (mantissa : ℚ) * 2 ^ exponent < mantissa' * 2 ^ exponent' := by
  have short' : (mantissa : ℚ) < 2 ^ (53 : Int) := by exact_mod_cast short
  have full' : (2 : ℚ) ^ (52 : Int) ≤ mantissa' := by exact_mod_cast full
  calc
    (mantissa : ℚ) * 2 ^ exponent < 2 ^ (53 : Int) * 2 ^ exponent := mul_lt_mul_of_pos_right short' (two_zpow_pos _)
    _ = 2 ^ (53 + exponent) := (zpow_add₀ two_ne_zero ..).symm
    _ ≤ 2 ^ (52 + exponent') := zpow_le_zpow_right₀ (by norm_num) (by omega)
    _ = 2 ^ (52 : Int) * 2 ^ exponent' := zpow_add₀ two_ne_zero ..
    _ ≤ _ := mul_le_mul_of_nonneg_right full' (two_zpow_pos _).le

theorem Magnitude.value_lt (left : Magnitude mantissa exponent) (right : Magnitude mantissa' exponent')
    (less : magnitudePlace mantissa exponent < magnitudePlace mantissa' exponent') :
    (mantissa : ℚ) * 2 ^ exponent < mantissa' * 2 ^ exponent' := by
  obtain ⟨short, low, full⟩ := left
  obtain ⟨short', low', full'⟩ := right
  unfold magnitudePlace at less
  rcases lt_trichotomy exponent exponent' with before | rfl | behind
  · exact mul_zpow_lt short (full'.resolve_left (by omega)) before
  · exact mul_lt_mul_of_pos_right (by exact_mod_cast (by omega : mantissa < mantissa')) (two_zpow_pos _)
  · have reached := full.resolve_left (by omega)
    omega

theorem Magnitude.eq_of_place (left : Magnitude mantissa exponent) (right : Magnitude mantissa' exponent')
    (same : magnitudePlace mantissa exponent = magnitudePlace mantissa' exponent') :
    mantissa = mantissa' ∧ exponent = exponent' := by
  obtain ⟨short, low, full⟩ := left
  obtain ⟨short', low', full'⟩ := right
  unfold magnitudePlace at same
  omega

theorem Magnitude.value_le_iff (left : Magnitude mantissa exponent) (right : Magnitude mantissa' exponent') :
    (mantissa : ℚ) * 2 ^ exponent ≤ mantissa' * 2 ^ exponent' ↔
      magnitudePlace mantissa exponent ≤ magnitudePlace mantissa' exponent' := by
  rcases lt_trichotomy (magnitudePlace mantissa exponent) (magnitudePlace mantissa' exponent') with less | same | more
  · exact iff_of_true (left.value_lt right less).le less.le
  · obtain ⟨rfl, rfl⟩ := left.eq_of_place right same
    exact iff_of_true le_rfl le_rfl
  · exact iff_of_false (right.value_lt left more).not_ge more.not_ge

end Magnitudes

theorem exists_magnitude {x : Float} (finite : isFinite x) : ∃ sign mantissa exponent, Magnitude mantissa exponent ∧
    rank x = Sign.apply sign (magnitudePlace mantissa exponent) ∧ value x = Sign.apply sign mantissa * 2 ^ exponent := by
  have bounds := canonical x
  unfold rank value
  rcases unpack_of_isFinite finite with ⟨sign, unpacked⟩ | ⟨sign, mantissa, exponent, positive, unpacked⟩
  · rw [unpacked]
    exact ⟨.positive, 0, -1074, ⟨by decide, by decide, .inl rfl⟩, rfl, (zero_mul _).symm⟩
  · rw [unpacked] at bounds ⊢
    obtain ⟨short, low, -, full⟩ := bounds
    exact ⟨sign, mantissa, exponent, ⟨short, low, full⟩, rfl, rfl⟩

theorem isNumber_of_isFinite {x : Float} (finite : isFinite x) : IsNumber x := by
  intro none
  rcases unpack_of_isFinite finite with ⟨sign, unpacked⟩ | ⟨sign, mantissa, exponent, positive, unpacked⟩
  · rw [unpacked] at none
    cases none
  · rw [unpacked] at none
    cases none

/-- Finite doubles are ordered as their numbers are. -/
theorem le_iff_value {x y : Float} (finite : isFinite x) (finite' : isFinite y) : x ≤ y ↔ value x ≤ value y := by
  rw [le_iff_rank, and_iff_right (isNumber_of_isFinite finite), and_iff_right (isNumber_of_isFinite finite')]
  obtain ⟨sign, mantissa, exponent, magnitude, placed, number⟩ := exists_magnitude finite
  obtain ⟨sign', mantissa', exponent', magnitude', placed', number'⟩ := exists_magnitude finite'
  have zero : Magnitude 0 (-1074) := ⟨by decide, by decide, .inl rfl⟩
  have least : magnitudePlace 0 (-1074) = 0 := rfl
  have forward := magnitude.value_le_iff magnitude'
  have backward := magnitude'.value_le_iff magnitude
  -- a magnitude is zero if its place is the origin
  have none := magnitude.value_le_iff zero
  have none' := magnitude'.value_le_iff zero
  rw [least, Nat.cast_zero, zero_mul] at none none'
  have above : (0 : ℚ) ≤ mantissa * 2 ^ exponent := mul_nonneg (Nat.cast_nonneg _) (two_zpow_pos _).le
  have above' : (0 : ℚ) ≤ mantissa' * 2 ^ exponent' := mul_nonneg (Nat.cast_nonneg _) (two_zpow_pos _).le
  rw [placed, placed', number, number']
  generalize magnitudePlace mantissa exponent = n at *
  generalize magnitudePlace mantissa' exponent' = n' at *
  cases sign with
  | positive =>
    cases sign' with
    | positive =>
      simp only [Sign.apply, Int.cast_natCast, forward, Int.ofNat_le]
    | negative =>
      simp only [Sign.apply, Int.cast_natCast, Int.cast_neg, neg_mul]
      constructor
      · intro less
        have first := none.mpr (by omega)
        have second := none'.mpr (by omega)
        linarith
      · intro less
        have first := none.mp (by linarith)
        have second := none'.mp (by linarith)
        omega
  | negative =>
    cases sign' with
    | positive =>
      simp only [Sign.apply, Int.cast_natCast, Int.cast_neg, neg_mul]
      exact iff_of_true (by omega) (by linarith)
    | negative =>
      simp only [Sign.apply, Int.cast_natCast, Int.cast_neg, neg_mul, neg_le_neg_iff, backward, Int.ofNat_le]

theorem rounding_le_iff {v : ℚ} {m k : Int} (low : -1074 ≤ k) (full : 2 ^ 52 ≤ m) (short : m < 2 ^ 53) (even : Even m) :
    rounding v ≤ m * 2 ^ k ↔ v ≤ m * 2 ^ k + 2 ^ (k - 1) := by
  have unit := two_zpow_pos k
  have half := two_zpow_pos (k - 1)
  have place : (2 : ℚ) ^ k = 2 * 2 ^ (k - 1) := by
    rw [zpow_sub_one₀ two_ne_zero]
    ring
  have full' : (2 : ℚ) ^ 52 ≤ m := by exact_mod_cast full
  have short' : (m : ℚ) + 1 ≤ 2 ^ 53 := by exact_mod_cast Int.add_one_le_of_lt short
  have limit : (2 : ℚ) ^ (k + 53) = 2 ^ 53 * 2 ^ k := by
    rw [add_comm, zpow_add₀ two_ne_zero]
    norm_num
  have least : (2 : ℚ) ^ (k + 52) = 2 ^ 52 * 2 ^ k := by
    rw [add_comm, zpow_add₀ two_ne_zero]
    norm_num
  have below : (2 : ℚ) ^ (k + 52) ≤ m * 2 ^ k := by
    rw [least]
    exact mul_le_mul_of_nonneg_right full' unit.le
  have beyond : m * 2 ^ k + 2 ^ k ≤ (2 : ℚ) ^ (k + 53) := by
    rw [limit, ← add_one_mul]
    exact mul_le_mul_of_nonneg_right short' unit.le
  rcases lt_or_ge v (m * 2 ^ k) with less | reached
  · refine iff_of_true (rounding_le ⟨m, k, ?_, low, rfl⟩ less.le) (by linarith)
    rw [abs_of_nonneg (by omega)]
    exact short
  rcases le_or_gt (2 ^ (k + 53)) v with great | within
  · have passed := le_rounding (isDouble_two_zpow (by omega)) great
    exact iff_of_false (by linarith) (by linarith)
  have positive : 0 < v := lt_of_lt_of_le (two_zpow_pos _) (below.trans reached)
  have placed : lastPlace v = k := lastPlace_eq_of_pos positive low within (.inr (below.trans reached))
  have scaled : rounding v ≤ m * 2 ^ k ↔ nearestEven (v / 2 ^ k) ≤ m := by
    rw [rounding, placed, mul_le_mul_iff_left₀ unit]
    exact Int.cast_le
  rw [scaled, nearestEven_le_iff, and_iff_left even, ← le_iff_lt_or_eq, div_le_iff₀ unit, place]
  ring_nf

theorem unsigned_nearest (num : Nat) {den : Nat} (positive : 0 < den) (small : rounding (num / den) < 2 ^ 1024) :
    Unsigned (nearest false num den) ∧ value (nearest false num den) = rounding (num / den) := by
  obtain ⟨mantissa, exponent, same, shape⟩ := parts_nearest num positive small
  refine ⟨unsigned_of_parts (shape false), ?_⟩
  rw [value_of_parts (shape false), ← same]
  rfl

theorem nearestBits_of_overflow {num den : Nat} (positive : 0 < den) (great : 2 ^ 1024 ≤ rounding (num / den)) :
    nearestBits num den = infinityBits := by
  rcases Nat.eq_zero_or_pos num with rfl | positive'
  · rw [Nat.cast_zero, zero_div, rounding_zero] at great
    exact absurd great (by norm_num)
  have above : (0 : ℚ) < num / den := by positivity
  have short := nearestEven_le_two_pow (num / den)
  have full := two_pow_le_nearestEven above
  obtain ⟨mantissa, nearest⟩ := exists_mantissa num den
  rw [nearestBits_eq positive' positive nearest, min_eq_left]
  unfold rounding at great
  rw [← nearest] at short full great
  generalize lastPlace (num / den) = last at *
  have size : (2 : ℚ) ^ (1024 : Int) ≤ mantissa * 2 ^ last := by exact_mod_cast great
  -- the exponent is great enough for the mantissa that there is
  have limit (k : Nat) (fits : mantissa ≤ 2 ^ k) : 1024 ≤ k + last := by
    refine (zpow_le_zpow_iff_right₀ (a := (2 : ℚ)) (by norm_num)).mp (size.trans ?_)
    rw [zpow_add₀ two_ne_zero, zpow_natCast]
    exact mul_le_mul_of_nonneg_right (by exact_mod_cast fits) (two_zpow_pos _).le
  have least := limit 53 (by exact_mod_cast short)
  unfold infinityBits
  rcases Nat.lt_or_ge mantissa (2 ^ 53) with fits | carry
  · have long : 2 ^ 52 ≤ mantissa := by
      have reached := full.resolve_left (by omega)
      exact_mod_cast reached
    have next : 971 < last := by
      by_contra same
      have last_eq : last = 971 := by omega
      rw [last_eq] at size
      have bound : (mantissa : ℚ) * 2 ^ (971 : Int) < 2 ^ (53 : Int) * 2 ^ (971 : Int) :=
        mul_lt_mul_of_pos_right (by exact_mod_cast fits) (two_zpow_pos _)
      rw [← zpow_add₀ two_ne_zero] at bound
      exact size.not_gt bound
    omega
  · omega

theorem nearest_of_overflow {num den : Nat} (positive : 0 < den) (great : 2 ^ 1024 ≤ rounding (num / den)) :
    nearest false num den = .ofBits (.ofNat infinityBits) := by
  rw [nearest, if_neg Bool.false_ne_true, nearestBits_of_overflow positive great, Nat.zero_add]

end Flipbook.Binary64
