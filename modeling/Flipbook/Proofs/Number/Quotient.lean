import Flipbook.Proofs.Number.BitOrder
import Flipbook.Proofs.Number.Nearest
import Flipbook.Proofs.Number.Rounding

namespace Flipbook.Binary64

open Float.Model (UnpackedFloat Format totalExponent)
open Float.Model.UnpackedFloat

/-- The mantissa in halves of its unit, what lies beyond the round bit left out. -/
def halves (em : ExtendedMantissa) : Nat := 2 * em.mantissa + em.roundBit.toNat

theorem halves_shiftRightOne (em : ExtendedMantissa) : halves em.shiftRightOne = halves em / 2 := by
  obtain ⟨mantissa, roundBit, stickyBit⟩ := em
  have bit : (mantissa % 2 != 0).toNat = mantissa % 2 := by
    rcases Nat.mod_two_eq_zero_or_one mantissa with even | odd
    · rw [even]
      rfl
    · rw [odd]
      rfl
  change 2 * (mantissa / 2) + (mantissa % 2 != 0).toNat = (2 * mantissa + roundBit.toNat) / 2
  have small := Bool.toNat_lt roundBit
  omega

theorem halves_shiftRight (em : ExtendedMantissa) (n : Nat) : halves (em >>> n) = halves em / 2 ^ n := by
  change halves (n.repeat ExtendedMantissa.shiftRightOne em) = _
  induction n with
  | zero => exact (Nat.div_one _).symm
  | succ n ih => rw [Nat.repeat, halves_shiftRightOne, ih, Nat.div_div_eq_div_mul, ← Nat.pow_succ]

def Within (bound : Nat) (em : ExtendedMantissa) : Prop := 2 * em.mantissa + em.roundBit.toNat ≤ 2 * bound

namespace Within

variable {em : ExtendedMantissa} {bound : Nat}

theorem mantissa_le (within : Within bound em) : em.mantissa ≤ bound := by
  unfold Within at within
  omega

theorem roundedMantissa_le (within : Within bound em) : em.roundedMantissa ≤ bound := by
  obtain ⟨mantissa, roundBit, stickyBit⟩ := em
  unfold Within at within
  cases roundBit <;> cases stickyBit <;>
    simp only [ExtendedMantissa.roundedMantissa, ExtendedMantissa.accuracy, Accuracy.roundToNearestEven,
      Bool.toNat_true, Bool.toNat_false] at within ⊢ <;> omega

theorem shiftRight {n : Nat} (within : Within (bound * 2 ^ n) em) : Within bound (em >>> n) := by
  change halves (em >>> n) ≤ 2 * bound
  rw [halves_shiftRight]
  refine Nat.div_le_of_le_mul (within.trans_eq ?_)
  rw [Nat.mul_comm bound, Nat.mul_left_comm]

end Within

theorem within_divided {num den bound : Nat} (positive : 0 < den) (less : num ≤ bound * den) :
    Within bound (.ofMantissaAndAccuracy (num / den) (accuracyOfFraction (num % den) den)) := by
  have parts := Nat.div_add_mod num den
  have below : (num % den) < den := Nat.mod_lt num positive
  unfold accuracyOfFraction
  have whole : num / den ≤ bound := Nat.div_le_of_le_mul (by rwa [Nat.mul_comm])
  split
  · exact Nat.mul_le_mul_left 2 whole
  · rename_i rest
    have strict : num / den < bound := by
      refine lt_of_le_of_ne whole fun same => rest ?_
      rw [same, Nat.mul_comm] at parts
      omega
    cases compare (2 * (num % den)) den with
    | lt => exact Nat.mul_le_mul_left 2 whole
    | eq =>
      change 2 * (num / den) + 1 ≤ _
      omega
    | gt =>
      change 2 * (num / den) + 1 ≤ _
      omega

theorem totalExponent_le {mantissa : Nat} {exponent : Int} (negative : exponent ≤ 0)
    (less : mantissa ≤ 2 ^ (-exponent).toNat) : totalExponent mantissa exponent ≤ 1 := by
  have size : mantissa.log2 < (-exponent).toNat + 1 := by
    rcases Nat.eq_zero_or_pos mantissa with rfl | positive
    · simp
    · exact (Nat.log2_lt positive.ne').mpr (less.trans_lt (Nat.pow_lt_pow_right (by decide) (by omega)))
  unfold totalExponent
  omega

theorem within_shiftToTarget {mantissa : Nat} {exponent : Int} {accuracy : Accuracy} (low : exponent ≤ -52)
    (less : mantissa ≤ 2 ^ (-exponent).toNat)
    (within : Within (2 ^ (-exponent).toNat) (.ofMantissaAndAccuracy mantissa accuracy)) :
    ∃ em place, shiftToTargetExponent .binary64 mantissa exponent accuracy = (em, place) ∧ place ≤ -52 ∧
      Within (2 ^ (-place).toNat) em := by
  have total := totalExponent_le (by omega) less
  have target : Format.binary64.targetExponent (totalExponent mantissa exponent) ≤ -52 := by
    change max (totalExponent mantissa exponent - 53) (-1074) ≤ -52
    omega
  refine ⟨_, _, rfl, by omega, Within.shiftRight ?_⟩
  rw [← Nat.pow_add]
  exact cast (congrArg (fun place => Within (2 ^ place) _) (by omega)) within

theorem roundWithAccuracy_le_one {mantissa : Nat} {exponent : Int} {accuracy : Accuracy} (low : exponent ≤ -52)
    (less : mantissa ≤ 2 ^ (-exponent).toNat)
    (within : Within (2 ^ (-exponent).toNat) (.ofMantissaAndAccuracy mantissa accuracy)) :
    roundWithAccuracy .binary64 .positive mantissa exponent accuracy = .zero .positive ∨
      ∃ rounded place positive, place ≤ -52 ∧ rounded ≤ 2 ^ (-place).toNat ∧
        roundWithAccuracy .binary64 .positive mantissa exponent accuracy =
          .finite .positive rounded place positive := by
  obtain ⟨em, place, first, low', within'⟩ := within_shiftToTarget low less within
  have exact_ : Within (2 ^ (-place).toNat) (.ofMantissaAndAccuracy em.roundedMantissa .exact) :=
    Nat.mul_le_mul_left 2 within'.roundedMantissa_le
  obtain ⟨em', place', second, low'', within''⟩ :=
    within_shiftToTarget low' within'.roundedMantissa_le exact_
  unfold roundWithAccuracy
  simp only [first, second]
  split
  · exact .inl rfl
  · rename_i nonzero
    exact .inr ⟨_, _, Nat.pos_of_ne_zero nonzero, low'', within''.mantissa_le, rfl⟩

theorem toNat_packComponents (exponent : BitVec 11) (mantissa : BitVec 52) :
    (packComponents .binary64 .positive exponent mantissa).toNat = exponent.toNat * 2 ^ 52 + mantissa.toNat := by
  unfold packComponents
  rw [BitVec.toNat_append, BitVec.toNat_append]
  rw [← Nat.shiftLeft_add_eq_or_of_lt mantissa.isLt, ← Nat.shiftLeft_add_eq_or_of_lt exponent.isLt]
  simp [Nat.shiftLeft_eq, Sign.toBitVec]

theorem pack_finite (sign : Sign) {mantissa : Nat} (exponent : Int) (positive : 0 < mantissa) :
    pack .binary64 (.finite sign mantissa exponent positive) =
      if exponent ≤ greatestExponent then
        packComponents .binary64 sign (if mantissa.log2 = 52 then .ofNat 11 (exponent + 1075).toNat else 0#11)
          (.ofNat 52 mantissa)
      else packedInfinity .binary64 sign := by
  have biased : (exponent + Format.binary64.exponentBias + Format.binary64.mantissaBitsWithoutImplicit).toNat =
      (exponent + 1075).toNat := by
    change (exponent + (1023 : Nat) + (52 : Nat)).toNat = _
    omega
  have beyond : 2 ^ Format.binary64.exponentBits ≤ (exponent + 1075).toNat + 1 ↔ ¬exponent ≤ greatestExponent := by
    change 2 ^ 11 ≤ _ ↔ ¬exponent ≤ 971
    omega
  have full : mantissa.log2 + 1 = Format.binary64.mantissaBits ↔ mantissa.log2 = 52 := Nat.add_right_cancel_iff
  unfold pack
  simp only [biased, beyond, full, ite_not]
  split
  · split <;> rfl
  · rfl

theorem toNat_pack_le_one {mantissa : Nat} {exponent : Int} (positive : 0 < mantissa) (low : exponent ≤ -52)
    (less : mantissa ≤ 2 ^ (-exponent).toNat) :
    (pack .binary64 (.finite .positive mantissa exponent positive)).toNat ≤ 1023 * 2 ^ 52 := by
  have within : exponent ≤ greatestExponent := low.trans (by decide)
  rw [pack_finite, if_pos within, toNat_packComponents, BitVec.toNat_ofNat]
  split
  · rename_i size
    have above : 2 ^ 52 ≤ mantissa := (Nat.le_log2 positive.ne').mp size.ge
    rw [BitVec.toNat_ofNat]
    rcases low.lt_or_eq with below | rfl
    · omega
    · -- the mantissa of one itself is all in the bit that is not written
      change mantissa ≤ 2 ^ 52 at less
      omega
  · have small := Nat.mod_lt mantissa (Nat.two_pow_pos 52)
    change 0 * 2 ^ 52 + _ ≤ _
    omega

theorem scaled_le {mantissa mantissa' : Nat} {exponent exponent' : Int} (positive : 0 < mantissa)
    (positive' : 0 < mantissa') (short : mantissa < 2 ^ 53)
    (ordered : exponent < exponent' ∧ 2 ^ 52 ≤ mantissa' ∨ exponent = exponent' ∧ mantissa ≤ mantissa') :
    totalExponent mantissa exponent ≤ totalExponent mantissa' exponent' ∧
      mantissa * 2 ^ (exponent - exponent').toNat ≤ mantissa' * 2 ^ (exponent' - exponent).toNat := by
  unfold totalExponent
  rcases ordered with ⟨below, full⟩ | ⟨rfl, less⟩
  · have size : mantissa.log2 < 53 := (Nat.log2_lt positive.ne').mpr short
    have size' : 52 ≤ mantissa'.log2 := (Nat.le_log2 positive'.ne').mpr full
    have one : mantissa * 2 ^ 0 ≤ mantissa' * 2 ^ 1 := by omega
    exact ⟨by omega, le_rescaled one (by omega)⟩
  · have size : mantissa.log2 ≤ mantissa'.log2 :=
      (Nat.le_log2 positive'.ne').mpr ((Nat.log2_self_le positive.ne').trans less)
    exact ⟨by omega, Nat.mul_le_mul_right _ less⟩

theorem div_le_one_of_reads {n m : Nat} {x y : UnpackedFloat} (dividend : Reads n x) (divisor : Reads m y)
    (less : n ≤ m) (nonzero : m ≠ 0) : (pack .binary64 (div .binary64 x y)).toNat ≤ 1023 * 2 ^ 52 := by
  cases divisor with
  | zero => exact absurd rfl nonzero
  | @finite _ mantissa' exponent' positive' low' short' full' sum' =>
    cases dividend with
    | zero =>
      change (pack .binary64 (.zero .positive)).toNat ≤ _
      decide
    | @finite _ mantissa exponent positive low short full sum =>
      have ordered : exponent < exponent' ∧ 2 ^ 52 ≤ mantissa' ∨ exponent = exponent' ∧ mantissa ≤ mantissa' := by
        omega
      obtain ⟨total, value⟩ := scaled_le positive positive' short ordered
      have target : Format.binary64.targetExponent
          (totalExponent mantissa exponent - totalExponent mantissa' exponent') ≤ -53 := by
        change max (totalExponent mantissa exponent - totalExponent mantissa' exponent' - 53) (-1074) ≤ -53
        omega
      unfold div divCore
      simp only
      generalize placed : min (exponent - exponent') (Format.binary64.targetExponent
          (totalExponent mantissa exponent - totalExponent mantissa' exponent')) = place
      have shifted : mantissa <<< (exponent - exponent' - place).toNat ≤ 2 ^ (-place).toNat * mantissa' := by
        rw [Nat.shiftLeft_eq, Nat.mul_comm (2 ^ _)]
        exact le_rescaled value (by omega)
      have whole : mantissa <<< (exponent - exponent' - place).toNat / mantissa' ≤ 2 ^ (-place).toNat :=
        Nat.div_le_of_le_mul (by rwa [Nat.mul_comm])
      change (pack .binary64 (roundWithAccuracy .binary64 .positive _ _ _)).toNat ≤ _
      rcases roundWithAccuracy_le_one (by omega) whole (within_divided positive' shifted) with
        none | ⟨rounded, place', positive, low, bound, result⟩
      · rw [none]
        decide
      · rw [result]
        exact toNat_pack_le_one positive low bound

theorem bits_zero : bits 0.0 = 0 := rfl

theorem bits_one : bits 1.0 = 1023 * 2 ^ 52 := rfl

theorem unsigned_zero : Unsigned 0.0 := by
  unfold Unsigned
  rw [bits_zero]
  decide

theorem unsigned_one : Unsigned 1.0 := by
  unfold Unsigned
  rw [bits_one]
  decide

theorem div_le_one {x y : Float} (left : Unsigned x) (right : Unsigned y) (less : x ≤ y) (nonzero : y ≠ 0.0) :
    Unsigned (x / y) ∧ x / y ≤ 1.0 := by
  have nonzero' : bits y ≠ 0 := by
    intro zero
    rw [← bits_zero] at zero
    exact nonzero (Float.toBits_inj.mp (UInt64.toNat_inj.mp zero))
  have bound : bits (x / y) ≤ bits 1.0 := by
    rw [bits_one]
    exact div_le_one_of_reads (reads_bits left) (reads_bits right) ((le_iff_bits left right).mp less) nonzero'
  have unsigned : Unsigned (x / y) := bound.trans_lt unsigned_one
  exact ⟨unsigned, (le_iff_bits unsigned unsigned_one).mpr bound⟩

end Flipbook.Binary64
