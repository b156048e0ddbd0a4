import Flipbook.Number.Binary64
import Mathlib

-- Only the whole library brings the lemmas on packed doubles, `pack_unpack` above all.

namespace Flipbook.Binary64

open Float.Model (UnpackedFloat Format)
open Float.Model.UnpackedFloat

def infinityBits : Nat := 2047 * 2 ^ 52

def bits (x : Float) : Nat := x.toBits.toNat

/-- A double that is neither negative nor infinite. -/
def Unsigned (x : Float) : Prop := bits x < infinityBits

/-- What the bits of such a double say. The mantissa is full unless the exponent is the least. -/
inductive Reads : Nat → UnpackedFloat → Prop
  | zero : Reads 0 (.zero .positive)
  | finite {n mantissa : Nat} {exponent : Int} (positive : 0 < mantissa) (low : -1074 ≤ exponent)
      (short : mantissa < 2 ^ 53) (full : exponent = -1074 ∨ 2 ^ 52 ≤ mantissa)
      (sum : (exponent + 1074).toNat * 2 ^ 52 + mantissa = n) :
      Reads n (.finite .positive mantissa exponent positive)

theorem toNat_unpackMantissa (b : BitVec 64) :
    (@unpackMantissa .binary64 b).toNat = b.toNat % 2 ^ 52 := by
  rw [unpackMantissa_def, BitVec.extractLsb'_toNat]
  rfl

theorem toNat_unpackExponent (b : BitVec 64) :
    (@unpackExponent .binary64 b).toNat = b.toNat / 2 ^ 52 % 2 ^ 11 := by
  rw [unpackExponent_def, BitVec.extractLsb'_toNat, Nat.shiftRight_eq_div_pow]

theorem toNat_unpackSign (b : BitVec 64) :
    (@unpackSign .binary64 b).toNat = b.toNat / 2 ^ 63 % 2 := by
  rw [unpackSign_def, BitVec.extractLsb'_toNat, Nat.shiftRight_eq_div_pow]
  rfl

theorem toNat_implicit (fraction : BitVec 52) : (1#1 ++ fraction).toNat = 2 ^ 52 + fraction.toNat := by
  rw [BitVec.toNat_append, ← Nat.shiftLeft_add_eq_or_of_lt fraction.isLt]
  rfl

theorem unpackExponent_ne {b : BitVec 64} (finite : b.toNat < infinityBits) :
    @unpackExponent .binary64 b ≠ -1#_ := by
  unfold infinityBits at finite
  intro all
  have exponent := toNat_unpackExponent b
  rw [all] at exponent
  simp at exponent
  omega

theorem reads_unpack (b : BitVec 64) (finite : b.toNat < infinityBits) :
    Reads b.toNat (unpack .binary64 b) := by
  have mantissa := toNat_unpackMantissa b
  have exponent := toNat_unpackExponent b
  have sign : @unpackSign .binary64 b = 0#1 := by
    refine BitVec.eq_of_toNat_eq ?_
    unfold infinityBits at finite
    rw [toNat_unpackSign, BitVec.toNat_ofNat]
    omega
  have noInfinity := unpackExponent_ne finite
  unfold infinityBits at finite
  have bias : ((Format.binary64.exponentBias : Nat) : Int) = 1023 := rfl
  unfold unpack
  simp only [sign, if_neg noInfinity, bias]
  split
  · rename_i least
    rw [least, BitVec.toNat_ofNat, Nat.zero_mod] at exponent
    rw [least]
    split
    · rename_i none
      rw [none, BitVec.toNat_ofNat, Nat.zero_mod] at mantissa
      have noBits : b.toNat = 0 := by omega
      rw [noBits]
      exact .zero
    · refine .finite _ (by simp) ?_ (.inl (by simp)) ?_
      · omega
      · simp
        omega
  · rename_i most
    have above : (@unpackExponent .binary64 b).toNat ≠ 0 := fun none => most (BitVec.eq_of_toNat_eq none)
    refine .finite _ ?_ ?_ (.inr ?_) ?_
    · push_cast
      omega
    · rw [toNat_implicit]
      omega
    · rw [toNat_implicit]
      omega
    · rw [toNat_implicit]
      push_cast
      omega

theorem Reads.compare {n m : Nat} {x y : UnpackedFloat} (left : Reads n x) (right : Reads m y) :
    x.compare y = some (compare n m) := by
  cases left with
  | zero =>
    cases right with
    | zero => rfl
    | finite positive low short full sum =>
      have less : 0 < m := by omega
      rw [compare_lt_iff_lt.mpr less]
      rfl
  | @finite _ mantissa exponent positive low short full sum =>
    cases right with
    | zero =>
      have more : 0 < n := by omega
      rw [compare_gt_iff_gt.mpr more]
      rfl
    | @finite _ mantissa' exponent' positive' low' short' full' sum' =>
      rw [UnpackedFloat.compare]
      refine congrArg some ?_
      rcases lt_trichotomy exponent exponent' with less | rfl | more
      · have ordered : n < m := by omega
        rw [compare_lt_iff_lt.mpr less, compare_lt_iff_lt.mpr ordered]
        rfl
      · have shifted : n = mantissa + (exponent + 1074).toNat * 2 ^ 52 := by omega
        have shifted' : m = mantissa' + (exponent + 1074).toNat * 2 ^ 52 := by omega
        rw [compare_eq_iff_eq.mpr rfl, shifted, shifted']
        rcases lt_trichotomy mantissa mantissa' with less | rfl | more
        · rw [compare_lt_iff_lt.mpr less, compare_lt_iff_lt.mpr (by omega)]
          rfl
        · rw [compare_eq_iff_eq.mpr rfl, compare_eq_iff_eq.mpr rfl]
          rfl
        · rw [compare_gt_iff_gt.mpr more, compare_gt_iff_gt.mpr (by omega)]
          rfl
      · have ordered : m < n := by omega
        rw [compare_gt_iff_gt.mpr more, compare_gt_iff_gt.mpr ordered]
        rfl

theorem reads_bits {x : Float} (unsigned : Unsigned x) : Reads (bits x) x.toModel.unpack :=
  reads_unpack x.toModel.toBits.toBitVec unsigned

theorem le_iff_compare {x y : Float} :
    x ≤ y ↔ (x.toModel.unpack.compare y.toModel.unpack).any (·.isLE) = true := by
  change decide (x.toModel ≤ y.toModel) = true ↔ _
  rw [decide_eq_true_iff]
  rfl

theorem lt_iff_compare {x y : Float} :
    x < y ↔ (x.toModel.unpack.compare y.toModel.unpack == some .lt) = true := by
  change decide (x.toModel < y.toModel) = true ↔ _
  rw [decide_eq_true_iff]
  rfl

theorem le_iff_bits {x y : Float} (left : Unsigned x) (right : Unsigned y) : x ≤ y ↔ bits x ≤ bits y := by
  have compared := (reads_bits left).compare (reads_bits right)
  rw [le_iff_compare, compared]
  exact Nat.isLE_compare

theorem beq_iff {x y : Float} (left : Unsigned x) (right : Unsigned y) : (x == y) = true ↔ x = y := by
  have compared := (reads_bits left).compare (reads_bits right)
  change (x.toModel.unpack.compare y.toModel.unpack == some .eq) = true ↔ _
  rw [compared, beq_iff_eq, Option.some_inj, compare_eq_iff_eq]
  exact (UInt64.toNat_inj).trans Float.toBits_inj

theorem toBits_ofBits {b : UInt64} (finite : b.toNat / 2 ^ 52 % 2 ^ 11 ≠ 2047) : (Float.ofBits b).toBits = b := by
  have noNaN : @isNaNBits .binary64 b.toBitVec = false := by
    have noInfinity : @unpackExponent .binary64 b.toBitVec ≠ -1#_ := by
      intro all
      have exponent := toNat_unpackExponent b.toBitVec
      rw [all] at exponent
      exact finite exponent.symm
    unfold isNaNBits
    simp only [noInfinity, false_and, decide_false]
  have packed := @pack_unpack .binary64 b.toBitVec (by decide)
  rw [noNaN, if_neg Bool.false_ne_true] at packed
  exact UInt64.toBitVec_inj.mp packed

theorem bits_ofBits {n : Nat} (finite : n < infinityBits) : bits (Float.ofBits (.ofNat n)) = n := by
  have size : (UInt64.ofNat n).toNat = n := UInt64.toNat_ofNat_of_lt' (finite.trans (by decide))
  have exponent : (UInt64.ofNat n).toNat / 2 ^ 52 % 2 ^ 11 ≠ 2047 := by
    rw [size]
    unfold infinityBits at finite
    omega
  exact (congrArg UInt64.toNat (toBits_ofBits exponent)).trans size

end Flipbook.Binary64
