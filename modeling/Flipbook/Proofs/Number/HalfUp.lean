import Flipbook.Number.Scalar
import Flipbook.Proofs.Number.Order
import Flipbook.Proofs.Number.Quotient

namespace Flipbook.Binary64

open Float.Model (UnpackedFloat Format totalExponent)
open Float.Model.UnpackedFloat

def unpackedFault? : UnpackedFloat → Option NumberError
  | .infinity _ => some .tooLarge
  | .notANumber => some .notANumber
  | .zero _ | .finite .. => none

theorem exponent_eq_iff (b : BitVec 64) :
    @unpackExponent .binary64 b = -1#_ ↔ b.toNat / 2 ^ 52 % 2 ^ 11 = 2047 := by
  rw [← toNat_unpackExponent]
  exact BitVec.toNat_inj.symm

theorem mantissa_eq_iff (b : BitVec 64) : @unpackMantissa .binary64 b = 0#_ ↔ b.toNat % 2 ^ 52 = 0 := by
  rw [← toNat_unpackMantissa]
  exact BitVec.toNat_inj.symm

theorem unpackedFault?_unpack {b : BitVec 64} (finite : @unpackExponent .binary64 b ≠ -1#_) :
    unpackedFault? (unpack .binary64 b) = none := by
  unfold unpack
  simp only [if_neg finite]
  split
  · split <;> rfl
  · rfl

theorem fault?_eq (x : Float) : fault? x = unpackedFault? x.toModel.unpack := by
  have exponent := exponent_eq_iff x.toModel.toBits.toBitVec
  have mantissa := mantissa_eq_iff x.toModel.toBits.toBitVec
  change _ = unpackedFault? (unpack .binary64 x.toModel.toBits.toBitVec)
  change _ ↔ x.toBits.toNat / 2 ^ 52 % 2 ^ 11 = 2047 at exponent
  by_cases full : x.toBits.toNat / 2 ^ 52 % 2 ^ 11 = 2047
  · change _ ↔ x.toBits.toNat % pow2 52 = 0 at mantissa
    change x.toBits.toNat / pow2 52 % pow2 11 = 2047 at full
    unfold fault? floor parts unpack
    simp only [if_pos full, if_pos (exponent.mpr full)]
    by_cases none : x.toBits.toNat % pow2 52 = 0
    · simp only [if_pos none, if_pos (mantissa.mpr none)]
      rfl
    · simp only [if_neg none, if_neg (mt mantissa.mp none)]
      rfl
  · rw [fault?_eq_none.mpr (isFinite_iff.mpr full), unpackedFault?_unpack (mt exponent.mp full)]

def packedFault? : UnpackedFloat → Option NumberError
  | .infinity _ => some .tooLarge
  | .notANumber => some .notANumber
  | .zero _ => none
  | .finite _ _ exponent _ => if exponent ≤ greatestExponent then none else some .tooLarge

theorem unpackedFault?_pack (u : UnpackedFloat) :
    unpackedFault? (unpack .binary64 (pack .binary64 u)) = packedFault? u := by
  cases u with
  | infinity sign => cases sign <;> decide
  | notANumber => decide
  | zero sign => cases sign <;> decide
  | finite sign mantissa exponent positive =>
    rw [pack_finite]
    change _ = if exponent ≤ greatestExponent then none else some NumberError.tooLarge
    by_cases within : exponent ≤ greatestExponent
    · rw [if_pos within, if_pos within]
      refine unpackedFault?_unpack ?_
      rw [unpackExponent_packComponents]
      split
      · intro all
        have value := congrArg BitVec.toNat all
        change (exponent + 1075).toNat % 2 ^ 11 = 2047 at value
        unfold greatestExponent at within
        omega
      · decide
    · rw [if_neg within, if_neg within]
      cases sign <;> decide

theorem fault?_add (x y : Float) :
    fault? (x + y) = packedFault? (add .binary64 x.toModel.unpack y.toModel.unpack) := by
  rw [fault?_eq, ← unpackedFault?_pack]
  rfl

theorem fault?_mul (x y : Float) :
    fault? (x * y) = packedFault? (mul .binary64 x.toModel.unpack y.toModel.unpack) := by
  rw [fault?_eq, ← unpackedFault?_pack]
  rfl

theorem log2_lt_of_lt {n k : Nat} (less : n < 2 ^ k) (positive : 0 < k) : n.log2 < k := by
  rcases Nat.eq_zero_or_pos n with rfl | nonzero
  · simpa using positive
  · exact (Nat.log2_lt nonzero.ne').mpr less

theorem shiftToTarget_spec (mantissa : Nat) (exponent : Int) :
    ∃ em n, shiftToTargetExponent .binary64 mantissa exponent .exact = (em, exponent + (n : Nat)) ∧
      halves em = 2 * mantissa / 2 ^ n ∧ mantissa.log2 < 53 + n ∧
      (n = 0 ∨ exponent + n = -1074 ∨ mantissa.log2 = 52 + n) := by
  refine ⟨_, _, rfl, halves_shiftRight _ _, ?_⟩
  have target : Format.binary64.targetExponent (totalExponent mantissa exponent) =
      max (mantissa.log2 + 1 + exponent - 53) (-1074) := rfl
  rw [target]
  omega

theorem packedFault?_roundWithAccuracy {sign : Sign} {mantissa : Nat} {exponent : Int}
    (low : exponent ≤ greatestExponent)
    (below : 2 * mantissa < (2 ^ 54 - 1) * 2 ^ (greatestExponent - exponent).toNat) :
    packedFault? (roundWithAccuracy .binary64 sign mantissa exponent .exact) = none := by
  unfold greatestExponent at low below
  obtain ⟨em, n, first, halved, short, least⟩ := shiftToTarget_spec mantissa exponent
  obtain ⟨em', n', second, -, -, least'⟩ := shiftToTarget_spec em.roundedMantissa (exponent + n)
  have size : mantissa.log2 < 53 + (971 - exponent).toNat := by
    refine log2_lt_of_lt ?_ (by omega)
    rw [Nat.pow_add]
    omega
  -- only at the greatest exponent a carry would lead beyond the doubles, and there the bound leaves none
  have rounded : em.roundedMantissa ≤ if exponent + n = 971 then 2 ^ 53 - 1 else 2 ^ 53 := by
    refine Within.roundedMantissa_le ?_
    change halves em ≤ _
    rw [halved]
    split
    · rename_i top
      have places : (971 - exponent).toNat = n := by omega
      rw [places] at below
      refine Nat.le_of_lt_succ ((Nat.div_lt_iff_lt_mul (Nat.two_pow_pos n)).mpr ?_)
      omega
    · have fits : mantissa < 2 ^ (53 + n) :=
        Nat.lt_log2_self.trans_le (Nat.pow_le_pow_right (by decide) short)
      rw [Nat.pow_add] at fits
      refine Nat.div_le_of_le_mul ?_
      omega
  have small : exponent + n + n' ≤ 971 := by
    have size' : em.roundedMantissa.log2 < if exponent + n = 971 then 53 else 54 := by
      split at rounded
      · rename_i top
        rw [if_pos top]
        exact log2_lt_of_lt (by omega) (by decide)
      · rename_i beneath
        rw [if_neg beneath]
        exact log2_lt_of_lt (by omega) (by decide)
    split at size' <;> omega
  unfold roundWithAccuracy
  simp only [first, second]
  split
  · rfl
  · exact if_pos small

theorem packedFault?_round {sign : Sign} {mantissa : Nat} {exponent : Int} (low : exponent ≤ greatestExponent)
    (below : 2 * mantissa < (2 ^ 54 - 1) * 2 ^ (greatestExponent - exponent).toNat) :
    packedFault? (round .binary64 sign mantissa exponent) = none := by
  unfold UnpackedFloat.round
  simp only [decreaseExponent]
  generalize (exponent - _).toNat = n
  apply packedFault?_roundWithAccuracy
  · omega
  · rw [Nat.shiftLeft_eq]
    have places : (greatestExponent - (exponent - n)).toNat = (greatestExponent - exponent).toNat + n := by omega
    rw [places, Nat.pow_add, ← Nat.mul_assoc, ← Nat.mul_assoc]
    exact Nat.mul_lt_mul_of_pos_right below (Nat.two_pow_pos n)

theorem packedFault?_normalize {mantissa : Int} {exponent : Int} (low : exponent ≤ greatestExponent)
    (below : 2 * mantissa.natAbs < (2 ^ 54 - 1) * 2 ^ (greatestExponent - exponent).toNat) (sign : Sign) :
    packedFault? (normalize .binary64 mantissa exponent sign) = none := by
  unfold UnpackedFloat.normalize
  split
  · exact packedFault?_round low (by omega)
  · rfl
  · exact packedFault?_round low (by omega)

theorem unpack_half : (0.5 : Float).toModel.unpack = .finite .positive (2 ^ 52) (-53) (by decide) := by
  have written : (0.5 : Float).toBits = .ofNat (1022 * 2 ^ 52) := by decide +kernel
  change unpack .binary64 (0.5 : Float).toBits.toBitVec = _
  rw [written]
  rfl

theorem half_below {mantissa : Nat} {exponent place : Int} (short : mantissa < 2 ^ 53)
    (high : exponent ≤ greatestExponent) (low : place ≤ -53) :
    2 * (mantissa * 2 ^ (exponent - place).toNat + 2 ^ 52 * 2 ^ (-53 - place).toNat) <
      (2 ^ 54 - 1) * 2 ^ (greatestExponent - place).toNat := by
  unfold greatestExponent at high ⊢
  have own : 2 ^ (exponent - place).toNat ≤ 2 ^ (971 - place).toNat :=
    Nat.pow_le_pow_right (by decide) (by omega)
  have half : 2 ^ 53 * 2 ^ (-53 - place).toNat < 2 ^ (971 - place).toNat := by
    rw [← Nat.pow_add]
    exact Nat.pow_lt_pow_right (by decide) (by omega)
  have scaled : mantissa * 2 ^ (exponent - place).toNat ≤ (2 ^ 53 - 1) * 2 ^ (971 - place).toNat :=
    Nat.mul_le_mul (by omega) own
  omega

theorem natAbs_apply (sign : Sign) (n : Nat) : (sign.apply n).natAbs = n := by
  cases sign with
  | positive => rfl
  | negative => exact Int.natAbs_neg n

theorem fault?_add_half (x : Float) : fault? (x + 0.5) = fault? x := by
  rw [fault?_add, fault?_eq, unpack_half]
  cases unpacked : x.toModel.unpack with
  | infinity | notANumber | zero => rfl
  | finite sign mantissa exponent positive =>
    have bounds := canonical x
    rw [unpacked] at bounds
    obtain ⟨short, -, high, -⟩ := bounds
    have place : min exponent (-53) ≤ greatestExponent := by
      unfold greatestExponent
      omega
    apply packedFault?_normalize place
    simp only [Nat.shiftLeft_eq]
    apply (Nat.mul_le_mul_left 2 (Int.natAbs_add_le ..)).trans_lt
    rw [natAbs_apply, natAbs_apply]
    exact half_below short high (Int.min_le_right ..)

theorem unpack_zero : (0.0 : Float).toModel.unpack = .zero .positive := by
  have written : (0.0 : Float).toBits = .ofNat 0 := by decide +kernel
  change unpack .binary64 (0.0 : Float).toBits.toBitVec = _
  rw [written]
  rfl

theorem isNaN_iff {x : Float} : isNaN x ↔ fault? x = some .notANumber := by
  unfold isNaN fault? floor
  cases parts x <;> simp

theorem pos_or_isNaN {x : Float} (above : ¬x ≤ 0.0) : 0.0 < x ∨ isNaN x := by
  rw [le_iff_compare, unpack_zero] at above
  rw [lt_iff_compare, unpack_zero, isNaN_iff, fault?_eq]
  cases unpacked : x.toModel.unpack with
  | notANumber => exact .inr rfl
  | zero sign =>
    rw [unpacked] at above
    exact absurd rfl above
  | infinity sign | finite sign =>
    rw [unpacked] at above
    cases sign with
    | positive => exact .inl rfl
    | negative => exact absurd rfl above

theorem unpack_of_pos {x : Float} (finite : isFinite x) (positive : 0.0 < x) :
    ∃ mantissa exponent nonzero, x.toModel.unpack = .finite .positive mantissa exponent nonzero := by
  rw [← fault?_eq_none, fault?_eq] at finite
  rw [lt_iff_compare, unpack_zero] at positive
  cases unpacked : x.toModel.unpack with
  | finite sign mantissa exponent nonzero =>
    cases sign with
    | positive => exact ⟨mantissa, exponent, nonzero, rfl⟩
    | negative =>
      rw [unpacked] at positive
      cases positive
  | zero =>
    rw [unpacked] at positive
    cases positive
  | infinity | notANumber =>
    rw [unpacked] at finite
    cases finite

theorem fault?_mul_of_fault {x y : Float} {e : NumberError} (fault : fault? x = some e) (finite : isFinite y)
    (positive : 0.0 < y) : fault? (x * y) = some e := by
  obtain ⟨mantissa, exponent, nonzero, unpacked⟩ := unpack_of_pos finite positive
  rw [fault?_eq] at fault
  rw [fault?_mul, unpacked]
  cases left : x.toModel.unpack with
  | zero | finite =>
    rw [left] at fault
    cases fault
  | infinity | notANumber =>
    rw [left] at fault
    exact fault

end Flipbook.Binary64
