import Flipbook.Proofs.Number.Difference
import Flipbook.Proofs.Number.RoundedResult

namespace Flipbook.Binary64

open Float.Model.UnpackedFloat

theorem divNearest_eq (num : Nat) {den : Nat} (positive : 0 < den) :
    (divNearest num den : Int) = nearestEven (num / den : ℚ) := by
  rw [← (StandsFor.quotient num positive).roundedMantissa]
  unfold divNearest accuracyOfFraction
  simp only
  apply congrArg
  split
  · rename_i less
    split
    · rfl
    · rw [compare_lt_iff_lt.mpr less]
      rfl
  · rename_i notLess
    split
    · rename_i more
      rw [if_neg (by omega), compare_gt_iff_gt.mpr more]
      rfl
    · rename_i notMore
      rw [if_neg (by omega), compare_eq_iff_eq.mpr (by omega)]
      rfl

theorem magnitude_eq {num den : Nat} (positive : 0 < num) (positive' : 0 < den) :
    magnitude num den = Int.log 2 (num / den : ℚ) := by
  have above : (0 : ℚ) < num / den := by positivity
  have low : (2 : ℚ) ^ num.log2 ≤ num := by exact_mod_cast Nat.log2_self_le positive.ne'
  have high : (num : ℚ) < 2 ^ (num.log2 + 1) := by exact_mod_cast Nat.lt_log2_self
  have low' : (2 : ℚ) ^ den.log2 ≤ den := by exact_mod_cast Nat.log2_self_le positive'.ne'
  have high' : (den : ℚ) < 2 ^ (den.log2 + 1) := by exact_mod_cast Nat.lt_log2_self
  have reaches (k : Int) : den * pow2 k.toNat ≤ num * pow2 (-k).toNat ↔ (2 : ℚ) ^ k ≤ num / den := by
    rw [two_zpow, div_le_div_iff₀ (by exact_mod_cast Nat.two_pow_pos _) (by exact_mod_cast positive')]
    rw [mul_comm den]
    norm_cast
  have log (k : Int) : (2 : ℚ) ^ k ≤ num / den ↔ k ≤ Int.log 2 (num / den : ℚ) := by
    rw [← Int.zpow_le_iff_le_log (by decide) above]
    push_cast
    rfl
  have least : (num.log2 : Int) - den.log2 - 1 ≤ Int.log 2 (num / den : ℚ) := by
    rw [← log, sub_sub, zpow_sub₀ two_ne_zero]
    exact div_le_div₀ (by positivity) (by exact_mod_cast low) (by positivity) (by exact_mod_cast high'.le)
  have most : Int.log 2 (num / den : ℚ) < (num.log2 : Int) - den.log2 + 1 := by
    by_contra reached
    rw [not_lt, ← log, sub_add_eq_add_sub, zpow_sub₀ two_ne_zero] at reached
    have beyond : (num : ℚ) / den < 2 ^ ((num.log2 : Int) + 1) / 2 ^ (den.log2 : Int) :=
      div_lt_div₀ (by exact_mod_cast high) (by exact_mod_cast low') (by positivity) (by positivity)
    exact beyond.not_ge reached
  unfold magnitude
  simp only [reaches, log]
  split <;> omega

theorem parts_of_fields {x : Float} {negative : Bool} {biased fraction : Nat} (short : fraction < 2 ^ 52)
    (within : biased < 2047) (written : bits x = (if negative then 2 ^ 63 else 0) + (biased * 2 ^ 52 + fraction)) :
    parts x = if biased = 0 then .finite negative fraction (-1074)
      else .finite negative (pow2 52 + fraction) (biased - 1075) := by
  have field : bits x / 2 ^ 52 % 2 ^ 11 = biased := by
    rw [written]
    split <;> omega
  have rest : bits x % 2 ^ 52 = fraction := by
    rw [written]
    split <;> omega
  have sign : decide (2 ^ 63 ≤ bits x) = negative := by
    rw [written]
    cases negative
    · exact decide_eq_false (show ¬2 ^ 63 ≤ 0 + (biased * 2 ^ 52 + fraction) by omega)
    · exact decide_eq_true (show 2 ^ 63 ≤ 2 ^ 63 + (biased * 2 ^ 52 + fraction) by omega)
  change x.toBits.toNat / pow2 52 % pow2 11 = biased at field
  change x.toBits.toNat % pow2 52 = fraction at rest
  change decide (pow2 63 ≤ x.toBits.toNat) = negative at sign
  unfold parts
  simp only [field, rest, sign]
  rw [if_neg (by omega)]

theorem exists_parts {mantissa : Nat} {exponent : Int} (short : mantissa ≤ 2 ^ 53) (low : -1074 ≤ exponent)
    (full : exponent = -1074 ∨ 2 ^ 52 ≤ mantissa)
    (within : (exponent + 1074).toNat * 2 ^ 52 + mantissa < infinityBits) :
    ∃ (mantissa' : Nat) (exponent' : Int), (mantissa' : ℚ) * 2 ^ exponent' = mantissa * 2 ^ exponent ∧
      ∀ negative x, bits x = (if negative then 2 ^ 63 else 0) + ((exponent + 1074).toNat * 2 ^ 52 + mantissa) →
        parts x = .finite negative mantissa' exponent' := by
  obtain ⟨n, rfl⟩ : ∃ n : Nat, exponent = n - 1074 := ⟨(exponent + 1074).toNat, by omega⟩
  have place : ((n : Int) - 1074 + 1074).toNat = n := by omega
  unfold infinityBits at within
  rw [place] at within ⊢
  rcases Nat.lt_or_ge mantissa (2 ^ 52) with below | above
  · have none : n = 0 := by omega
    subst none
    refine ⟨mantissa, -1074, rfl, fun negative x written => ?_⟩
    exact (parts_of_fields below (show 0 < 2047 by decide) written).trans (if_pos rfl)
  rcases short.lt_or_eq with fits | rfl
  · refine ⟨mantissa, n - 1074, rfl, fun negative x written => ?_⟩
    have fields : n * 2 ^ 52 + mantissa = (n + 1) * 2 ^ 52 + (mantissa - 2 ^ 52) := by omega
    have shape := parts_of_fields (by omega) (by omega) (written.trans (congrArg _ fields))
    have whole : pow2 52 + (mantissa - 2 ^ 52) = mantissa := Nat.add_sub_cancel' above
    have shifted : ((n + 1 : Nat) : Int) - 1075 = n - 1074 := by omega
    rw [shape, if_neg (Nat.succ_ne_zero n), whole, shifted]
  · refine ⟨2 ^ 52, n - 1073, ?_, fun negative x written => ?_⟩
    · have next : (n : Int) - 1073 = n - 1074 + 1 := by omega
      rw [next, zpow_add_one₀ two_ne_zero]
      push_cast
      ring
    · have fields : n * 2 ^ 52 + 2 ^ 53 = (n + 2) * 2 ^ 52 + 0 := by omega
      have shape := parts_of_fields (by decide) (by omega) (written.trans (congrArg _ fields))
      have shifted : ((n + 2 : Nat) : Int) - 1075 = n - 1073 := by omega
      rw [shape, if_neg (Nat.succ_ne_zero (n + 1)), shifted]
      rfl

theorem place_within {v : ℚ} {mantissa : Nat} (nearest : (mantissa : Int) = nearestEven (v / 2 ^ lastPlace v))
    (short : mantissa ≤ 2 ^ 53) (full : lastPlace v = -1074 ∨ 2 ^ 52 ≤ mantissa) (small : rounding v < 2 ^ 1024) :
    (lastPlace v + 1074).toNat * 2 ^ 52 + mantissa < infinityBits := by
  have low := low_lastPlace v
  have size : (mantissa : ℚ) * 2 ^ lastPlace v < 2 ^ (1024 : Int) := by
    unfold rounding at small
    rw [← nearest] at small
    exact_mod_cast small
  unfold infinityBits
  have limit (k : Nat) (reached : 2 ^ k ≤ mantissa) : k + lastPlace v < 1024 := by
    refine (zpow_lt_zpow_iff_right₀ (a := (2 : ℚ)) (by norm_num)).mp (lt_of_le_of_lt ?_ size)
    rw [zpow_add₀ two_ne_zero, zpow_natCast]
    exact mul_le_mul_of_nonneg_right (by exact_mod_cast reached) (two_zpow_pos _).le
  rcases full with least | full
  · omega
  · have most := limit 52 full
    rcases short.lt_or_eq with fits | carry
    · omega
    · have most' := limit 53 carry.ge
      omega

theorem nearestBits_eq {num den mantissa : Nat} (positive : 0 < num) (positive' : 0 < den)
    (nearest : (mantissa : Int) = nearestEven (num / den / 2 ^ lastPlace (num / den))) :
    nearestBits num den = min infinityBits ((lastPlace (num / den) + 1074).toNat * 2 ^ 52 + mantissa) := by
  have placed : max (-1074) (magnitude num den - 52) = lastPlace (num / den) := by
    rw [magnitude_eq positive positive', lastPlace, abs_of_pos (by positivity)]
  have scaled : divNearest (num * pow2 (-lastPlace (num / den)).toNat) (den * pow2 (lastPlace (num / den)).toNat) =
      mantissa := by
    have unit : 0 < pow2 (lastPlace (num / den)).toNat := Nat.two_pow_pos _
    rw [← Int.natCast_inj, divNearest_eq _ (Nat.mul_pos positive' unit), nearest]
    apply congrArg
    rw [two_zpow (lastPlace _), Nat.cast_mul, Nat.cast_mul, div_div_eq_mul_div, div_mul_eq_mul_div, div_div]
  unfold nearestBits
  rw [if_neg positive.ne']
  simp only [placed, scaled]
  rfl

theorem exists_mantissa (num den : Nat) :
    ∃ mantissa : Nat, (mantissa : Int) = nearestEven (num / den / 2 ^ lastPlace (num / den)) :=
  ⟨_, Int.toNat_of_nonneg (le_nearestEven (by positivity))⟩

theorem parts_nearest (num : Nat) {den : Nat} (positive : 0 < den) (small : rounding (num / den) < 2 ^ 1024) :
    ∃ (mantissa : Nat) (exponent : Int), (mantissa : ℚ) * 2 ^ exponent = rounding (num / den) ∧
      ∀ negative, parts (nearest negative num den) = .finite negative mantissa exponent := by
  rcases Nat.eq_zero_or_pos num with rfl | positive'
  · obtain ⟨mantissa, exponent, same, shape⟩ :=
      exists_parts (Nat.zero_le (2 ^ 53)) (le_refl (-1074)) (.inl rfl) (by decide)
    have none : nearestBits 0 den = 0 := if_pos rfl
    refine ⟨mantissa, exponent, ?_, fun negative => shape negative _ ?_⟩
    · rw [same, Nat.cast_zero, zero_mul, zero_div, rounding_zero]
    · rw [bits_nearest (by rw [none]; decide), none]
      rfl
  · have above : (0 : ℚ) < num / den := by positivity
    have short := nearestEven_le_two_pow (num / den)
    have full := two_pow_le_nearestEven above
    obtain ⟨mantissa, nearest⟩ := exists_mantissa num den
    have written := nearestBits_eq positive' positive nearest
    rw [← nearest] at short full
    have short' : mantissa ≤ 2 ^ 53 := by exact_mod_cast short
    have full' : lastPlace (num / den) = -1074 ∨ 2 ^ 52 ≤ mantissa := by exact_mod_cast full
    have within := place_within nearest short' full' small
    rw [min_eq_right within.le] at written
    obtain ⟨mantissa', exponent', same, shape⟩ := exists_parts short' (low_lastPlace _) full' within
    refine ⟨mantissa', exponent', ?_, fun negative => shape negative _ ?_⟩
    · rw [same, rounding, ← nearest, Int.cast_natCast]
    · rw [bits_nearest (written.trans_lt within), written]

theorem isFinite_of_parts {x : Float} {negative : Bool} {mantissa : Nat} {exponent : Int}
    (shape : parts x = .finite negative mantissa exponent) : isFinite x := by
  unfold isFinite
  rw [shape]

theorem value_nearest (num : Nat) {den : Nat} (positive : 0 < den) (small : rounding (num / den) < 2 ^ 1024)
    (negative : Bool) :
    isFinite (nearest negative num den) ∧ value (nearest negative num den) = signed negative 1 * rounding (num / den) := by
  obtain ⟨mantissa, exponent, same, shape⟩ := parts_nearest num positive small
  refine ⟨isFinite_of_parts (shape negative), ?_⟩
  rw [value_of_parts (shape negative), ← same]
  cases negative <;> simp [signed]

theorem parts_of_unsigned {x : Float} (unsigned : Unsigned x) :
    ∃ (mantissa : Nat) (exponent : Int), parts x = .finite false mantissa exponent ∧ mantissa < 2 ^ 53 ∧
      -1074 ≤ exponent ∧ exponent ≤ greatestExponent := by
  have reads := reads_bits unsigned
  have bounds := canonical x
  rw [parts_eq]
  generalize bits x = n at reads
  cases unpacked : x.toModel.unpack with
  | infinity | notANumber =>
    rw [unpacked] at reads
    cases reads
  | zero sign =>
    rw [unpacked] at reads
    cases reads
    exact ⟨0, -1074, rfl, by decide, by decide, by decide⟩
  | finite sign mantissa exponent positive =>
    rw [unpacked] at reads bounds
    obtain ⟨short, low, high, -⟩ := bounds
    cases reads
    exact ⟨mantissa, exponent, rfl, short, low, high⟩

theorem isFinite_of_unsigned {x : Float} (unsigned : Unsigned x) : isFinite x := by
  obtain ⟨mantissa, exponent, shape, -⟩ := parts_of_unsigned unsigned
  exact isFinite_of_parts shape

theorem unsigned_of_parts {x : Float} {mantissa : Nat} {exponent : Int}
    (shape : parts x = .finite false mantissa exponent) : Unsigned x := by
  have field := isFinite_iff.mp (isFinite_of_parts shape)
  have size : bits x < 2 ^ 64 := x.toBits.toBitVec.isLt
  have sign : decide (2 ^ 63 ≤ bits x) = false := by
    unfold parts at shape
    simp only at shape
    split at shape
    · split at shape <;> cases shape
    · split at shape <;> exact (Parts.finite.inj shape).1
  rw [decide_eq_false_iff_not] at sign
  unfold Unsigned infinityBits
  omega

theorem unsigned_of_pos {x : Float} (finite : isFinite x) (positive : 0.0 < x) : Unsigned x := by
  obtain ⟨mantissa, exponent, nonzero, unpacked⟩ := unpack_of_pos finite positive
  have shape : parts x = .finite false mantissa exponent := by
    rw [parts_eq, unpacked]
    rfl
  exact unsigned_of_parts shape

theorem value_pos {x : Float} (finite : isFinite x) (positive : 0.0 < x) : 0 < value x := by
  obtain ⟨mantissa, exponent, nonzero, unpacked⟩ := unpack_of_pos finite positive
  rw [value_of_finite unpacked]
  have some : (0 : ℚ) < mantissa := Nat.cast_pos.mpr nonzero
  simpa [Sign.apply] using mul_pos some (two_zpow_pos exponent)

theorem value_in_units {x : Float} {mantissa : Nat} {exponent unit : Int}
    (shape : parts x = .finite false mantissa exponent) (less : unit ≤ exponent) :
    value x = (mantissa * pow2 (exponent - unit).toNat : Nat) * 2 ^ unit := by
  rw [value_of_parts shape, two_zpow_split less, Nat.cast_mul, cast_pow2, mul_assoc]
  rfl

theorem value_lt {x : Float} (unsigned : Unsigned x) : value x < 2 ^ 1024 := by
  obtain ⟨mantissa, exponent, shape, short, low, high⟩ := parts_of_unsigned unsigned
  unfold greatestExponent at high
  have short' : (mantissa : ℚ) < 2 ^ 53 := by exact_mod_cast short
  have number : value x = mantissa * 2 ^ exponent := value_of_parts shape
  rw [number, ← zpow_natCast]
  calc
    (mantissa : ℚ) * 2 ^ exponent < 2 ^ 53 * 2 ^ exponent := mul_lt_mul_of_pos_right short' (two_zpow_pos _)
    _ = 2 ^ (53 + exponent) := (zpow_add₀ two_ne_zero 53 exponent).symm
    _ ≤ _ := zpow_le_zpow_right₀ (by norm_num) (by omega)

theorem units_mod_lt {m n : Nat} (e f : Int) (short : m < 2 ^ 53) (short' : n < 2 ^ 53) (positive : 0 < n) :
    m * pow2 (e - min e f).toNat % (n * pow2 (f - min e f).toNat) < 2 ^ 53 := by
  rcases le_total e f with less | more
  · have own : (e - min e f).toNat = 0 := by omega
    rw [own, show m * pow2 0 = m from mul_one m]
    exact (Nat.mod_le _ _).trans_lt short
  · have own : (f - min e f).toNat = 0 := by omega
    rw [own, show n * pow2 0 = n from mul_one n]
    exact (Nat.mod_lt _ positive).trans short'

/-- The remainder of doubles is itself a double. -/
theorem remainder_eq {x y : Float} (unsigned : Unsigned x) (unsigned' : Unsigned y) (nonzero : value y ≠ 0) :
    ∃ r, remainder x y = .ok r ∧ Unsigned r ∧ value r = value x - ⌊value x / value y⌋ * value y := by
  obtain ⟨m, e, shape, short, low, -⟩ := parts_of_unsigned unsigned
  obtain ⟨n, f, shape', short', low', -⟩ := parts_of_unsigned unsigned'
  have positive : 0 < n := by
    apply Nat.pos_of_ne_zero
    rintro rfl
    exact nonzero (by rw [value_of_parts shape']; exact zero_mul _)
  have left := value_in_units shape (min_le_left e f)
  have right := value_in_units shape' (min_le_right e f)
  have fits := units_mod_lt e f short short' positive
  have limit := value_lt unsigned
  unfold remainder
  rw [shape, shape']
  simp only [if_neg positive.ne']
  generalize placed : min e f = unit at left right fits
  have power := two_zpow_pos unit
  generalize m * pow2 (e - unit).toNat = M at left fits ⊢
  generalize n * pow2 (f - unit).toNat = N at right fits ⊢
  have quotient : ⌊value x / value y⌋ = (M / N : Nat) := by
    rw [left, right, mul_div_mul_right _ _ power.ne', Rat.floor_natCast_div_natCast]
    rfl
  have rest : ((M % N : Nat) : ℚ) * 2 ^ unit = value x - ⌊value x / value y⌋ * value y := by
    have parts : (N : ℚ) * (M / N : Nat) + (M % N : Nat) = M := by exact_mod_cast Nat.div_add_mod M N
    rw [quotient, left, right, ← parts, Int.cast_natCast]
    ring
  have ratio : ((M % N * pow2 unit.toNat : Nat) : ℚ) / (pow2 (-unit).toNat : Nat) = (M % N : Nat) * 2 ^ unit := by
    rw [Nat.cast_mul, mul_div_assoc, ← two_zpow]
  -- the remainder is among the doubles, so that nothing is lost when it is rounded
  have exact_ : rounding ((M % N * pow2 unit.toNat : Nat) / (pow2 (-unit).toNat : Nat)) = (M % N : Nat) * 2 ^ unit := by
    rw [ratio]
    exact rounding_of_isDouble ⟨(M % N : Nat), unit, by rw [Nat.abs_cast]; exact_mod_cast fits, by omega, rfl⟩
  have small : ((M % N : Nat) : ℚ) * 2 ^ unit < 2 ^ 1024 := by
    refine lt_of_le_of_lt ?_ (left ▸ limit)
    exact mul_le_mul_of_nonneg_right (Nat.cast_le.mpr (Nat.mod_le M N)) power.le
  have den : 0 < pow2 (-unit).toNat := Nat.two_pow_pos _
  obtain ⟨mantissa, exponent, same, shaped⟩ :=
    parts_nearest (M % N * pow2 unit.toNat) den (exact_.trans_lt small)
  refine ⟨_, rfl, unsigned_of_parts (shaped false), ?_⟩
  rw [value_of_parts (shaped false), ← rest, ← exact_]
  exact same

end Flipbook.Binary64
