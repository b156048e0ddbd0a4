import Flipbook.Number.Notation
import Flipbook.Proofs.Number.HalfUp

namespace Flipbook.Binary64

open Float.Model (UnpackedFloat Format)
open Float.Model.UnpackedFloat

def isNegative : Sign → Bool
  | .negative => true
  | .positive => false

/-- The parts of what a double was unpacked to. Zero has the least exponent. -/
def partsOf : UnpackedFloat → Parts
  | .infinity sign => .infinite (isNegative sign)
  | .notANumber => .notANumber
  | .zero sign => .finite (isNegative sign) 0 (-1074)
  | .finite sign mantissa exponent _ => .finite (isNegative sign) mantissa exponent

theorem isNegative_unpackSign (b : BitVec 64) :
    isNegative (Sign.ofBitVec (@unpackSign .binary64 b)) = decide (2 ^ 63 ≤ b.toNat) := by
  have bit := toNat_unpackSign b
  have size := b.isLt
  generalize @unpackSign .binary64 b = sign at bit
  rcases sign.eq_zero_or_eq_one with rfl | rfl
  · have low : ¬2 ^ 63 ≤ b.toNat := by
      rw [BitVec.toNat_ofNat] at bit
      omega
    rw [decide_eq_false low]
    rfl
  · have high : 2 ^ 63 ≤ b.toNat := by
      rw [BitVec.toNat_ofNat] at bit
      omega
    rw [decide_eq_true high]
    rfl

theorem parts_eq (x : Float) : parts x = partsOf x.toModel.unpack := by
  have exponent := exponent_eq_iff x.toModel.toBits.toBitVec
  have mantissa := mantissa_eq_iff x.toModel.toBits.toBitVec
  have biased := toNat_unpackExponent x.toModel.toBits.toBitVec
  have fraction := toNat_unpackMantissa x.toModel.toBits.toBitVec
  have sign := isNegative_unpackSign x.toModel.toBits.toBitVec
  have implicit := toNat_implicit (@unpackMantissa .binary64 x.toModel.toBits.toBitVec)
  have least : @unpackExponent .binary64 x.toModel.toBits.toBitVec = 0#_ ↔
      (@unpackExponent .binary64 x.toModel.toBits.toBitVec).toNat = 0 := BitVec.toNat_inj.symm
  have bias : ((Format.binary64.exponentBias : Nat) : Int) + (Format.binary64.mantissaBitsWithoutImplicit : Nat) =
    1075 := rfl
  rw [biased] at least
  rw [fraction] at implicit
  change _ ↔ x.toBits.toNat / pow2 52 % pow2 11 = 2047 at exponent
  change _ ↔ x.toBits.toNat % pow2 52 = 0 at mantissa
  change _ ↔ x.toBits.toNat / pow2 52 % pow2 11 = 0 at least
  change _ = x.toBits.toNat / pow2 52 % pow2 11 at biased
  change _ = x.toBits.toNat % pow2 52 at fraction
  change _ = pow2 52 + x.toBits.toNat % pow2 52 at implicit
  change _ = decide (pow2 63 ≤ x.toBits.toNat) at sign
  change parts x = partsOf (unpack .binary64 x.toModel.toBits.toBitVec)
  unfold parts unpack
  simp only [bias, biased]
  by_cases full : x.toBits.toNat / pow2 52 % pow2 11 = 2047
  · simp only [if_pos full, if_pos (exponent.mpr full)]
    by_cases none : x.toBits.toNat % pow2 52 = 0
    · simp only [if_pos none, if_pos (mantissa.mpr none), partsOf, sign]
    · simp only [if_neg none, if_neg (mt mantissa.mp none), partsOf]
  · simp only [if_neg full, if_neg (mt exponent.mp full)]
    by_cases zero : x.toBits.toNat / pow2 52 % pow2 11 = 0
    · simp only [if_pos zero, if_pos (least.mpr zero)]
      by_cases none : x.toBits.toNat % pow2 52 = 0
      · simp only [dif_pos (mantissa.mpr none), partsOf, sign, none]
      · simp only [dif_neg (mt mantissa.mp none), partsOf, sign, fraction, zero]
        rfl
    · simp only [if_neg zero, if_neg (mt least.mp zero), partsOf, sign, implicit]

def unpackedValue : UnpackedFloat → ℚ
  | .finite sign mantissa exponent _ => sign.apply mantissa * 2 ^ exponent
  | .zero _ | .infinity _ | .notANumber => 0

def value (x : Float) : ℚ := unpackedValue x.toModel.unpack

theorem value_of_parts {x : Float} {negative : Bool} {mantissa : Nat} {exponent : Int}
    (shape : parts x = .finite negative mantissa exponent) : value x = signed negative mantissa * 2 ^ exponent := by
  rw [parts_eq] at shape
  unfold value
  cases unpacked : x.toModel.unpack with
  | infinity | notANumber =>
    rw [unpacked] at shape
    cases shape
  | zero sign =>
    rw [unpacked] at shape
    obtain ⟨rfl, rfl, rfl⟩ := Parts.finite.inj shape
    cases sign <;> simp [unpackedValue, signed, isNegative]
  | finite sign =>
    rw [unpacked] at shape
    obtain ⟨rfl, rfl, rfl⟩ := Parts.finite.inj shape
    cases sign <;> rfl

theorem cast_pow2 (n : Nat) : ((pow2 n : Nat) : ℚ) = 2 ^ n := Nat.cast_pow 2 n

theorem two_zpow (exponent : Int) :
    (2 : ℚ) ^ exponent = (pow2 exponent.toNat : Nat) / (pow2 (-exponent).toNat : Nat) := by
  rw [cast_pow2, cast_pow2, ← zpow_natCast, ← zpow_natCast, ← zpow_sub₀ two_ne_zero]
  congr 1
  omega

theorem signed_mul (negative : Bool) (n m : Nat) : signed negative (n * m) = signed negative n * m := by
  cases negative <;> simp [signed]

theorem natAbs_signed (negative : Bool) (n : Nat) : (signed negative n).natAbs = n := by
  cases negative <;> simp [signed]

theorem value_eq_div {x : Float} {negative : Bool} {mantissa : Nat} {exponent : Int}
    (shape : parts x = .finite negative mantissa exponent) :
    value x = (signed negative (mantissa * pow2 exponent.toNat) : ℚ) / (pow2 (-exponent).toNat : Nat) := by
  rw [value_of_parts shape, two_zpow, ← mul_div_assoc, signed_mul, Int.cast_mul, Int.cast_natCast]

theorem floor_eq {x : Float} (finite : isFinite x) : floor x = .ok ⌊value x⌋ := by
  obtain ⟨negative, mantissa, exponent, shape, -⟩ := parts_of_isFinite finite
  rw [value_eq_div shape, Rat.floor_intCast_div_natCast]
  unfold floor
  rw [shape]

theorem whole?_eq_some {x : Float} (finite : isFinite x) {n : Int} (same : value x = n) : whole? x = some n := by
  obtain ⟨negative, mantissa, exponent, shape, -⟩ := parts_of_isFinite finite
  have unit : 0 < pow2 (-exponent).toNat := Nat.two_pow_pos _
  have product : signed negative (mantissa * pow2 exponent.toNat) = n * (pow2 (-exponent).toNat : Nat) := by
    have quotient := value_eq_div shape
    rw [same, eq_div_iff (Nat.cast_ne_zero.mpr unit.ne')] at quotient
    exact_mod_cast quotient.symm
  unfold whole?
  rw [shape]
  simp only
  rcases le_total 0 exponent with high | low
  · have one : (-exponent).toNat = 0 := by omega
    rw [one] at product ⊢
    rw [if_pos (Nat.mod_one mantissa), Nat.div_one, product]
    exact congrArg some (mul_one n)
  · have one : exponent.toNat = 0 := by omega
    rw [one] at product ⊢
    change signed negative (mantissa * 1) = _ at product
    rw [mul_one] at product
    have size := congrArg Int.natAbs product
    rw [natAbs_signed, Int.natAbs_mul, Int.natAbs_natCast] at size
    rw [size, signed_mul] at product
    rw [size, if_pos (Nat.mul_mod_left ..), Nat.mul_div_cancel _ unit]
    change some (signed negative (n.natAbs * 1)) = _
    rw [mul_one, Int.eq_of_mul_eq_mul_right (Int.natCast_ne_zero.mpr unit.ne') product]

end Flipbook.Binary64
