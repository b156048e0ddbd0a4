import Flipbook.Number.Scalar
import Flipbook.Proofs.Number.Nearest

namespace Flipbook.Binary64

open Float.Model.UnpackedFloat

def greatestExponent : Int := 971

theorem isFinite_iff {x : Float} : isFinite x ↔ bits x / 2 ^ 52 % 2 ^ 11 ≠ 2047 := by
  have biased : bits x / 2 ^ 52 % 2 ^ 11 = x.toBits.toNat / pow2 52 % pow2 11 := rfl
  rw [biased]
  unfold isFinite parts
  simp only
  split
  · rename_i shape
    split at shape
    · split at shape <;> cases shape
    · rename_i other
      simpa using other
  · rename_i noFinite
    split at noFinite
    · rename_i same
      simp [same]
    · split at noFinite <;> simp at noFinite

theorem parts_of_isFinite {x : Float} (finite : isFinite x) :
    ∃ negative mantissa exponent, parts x = .finite negative mantissa exponent ∧ mantissa < 2 ^ 53 ∧
      exponent ≤ greatestExponent := by
  have exponentField := isFinite_iff.mp finite
  change x.toBits.toNat / pow2 52 % pow2 11 ≠ 2047 at exponentField
  unfold parts greatestExponent
  simp only [if_neg exponentField]
  change x.toBits.toNat / 2 ^ 52 % 2 ^ 11 ≠ 2047 at exponentField
  split
  · refine ⟨_, _, _, rfl, ?_, by decide⟩
    change x.toBits.toNat % 2 ^ 52 < 2 ^ 53
    omega
  · refine ⟨_, _, _, rfl, ?_, ?_⟩
    · change 2 ^ 52 + x.toBits.toNat % 2 ^ 52 < 2 ^ 53
      omega
    · change ((x.toBits.toNat / 2 ^ 52 % 2 ^ 11 : Nat) : Int) - 1075 ≤ 971
      omega

theorem bits_nearest {num den : Nat} (bounded : nearestBits num den < infinityBits) (negative : Bool) :
    bits (nearest negative num den) = (if negative then 2 ^ 63 else 0) + nearestBits num den := by
  unfold infinityBits at bounded
  let written : UInt64 := .ofNat ((if negative then pow2 63 else 0) + nearestBits num den)
  have size : written.toNat = (if negative then 2 ^ 63 else 0) + nearestBits num den := by
    refine UInt64.toNat_ofNat_of_lt' ?_
    change (if negative then 2 ^ 63 else 0) + nearestBits num den < 2 ^ 64
    split <;> omega
  have exponent : written.toNat / 2 ^ 52 % 2 ^ 11 ≠ 2047 := by
    rw [size]
    split <;> omega
  exact (congrArg UInt64.toNat (toBits_ofBits exponent)).trans size

theorem isFinite_nearest {num den : Nat} (bounded : nearestBits num den < infinityBits) (negative : Bool) :
    isFinite (nearest negative num den) := by
  rw [isFinite_iff, bits_nearest bounded]
  unfold infinityBits at bounded
  split <;> omega

def fault? (x : Float) : Option NumberError :=
  match floor x with
  | .ok _ => none
  | .error e => some e

theorem fault?_eq_none {x : Float} : fault? x = none ↔ isFinite x := by
  unfold fault? floor isFinite
  cases parts x <;> simp

theorem floor_of_isFinite {x : Float} (finite : isFinite x) : ∃ n, floor x = .ok n := by
  obtain ⟨negative, mantissa, exponent, shape, -⟩ := parts_of_isFinite finite
  unfold floor
  rw [shape]
  exact ⟨_, rfl⟩

theorem floor_of_fault {x : Float} {e : NumberError} (fault : fault? x = some e) : floor x = .error e := by
  unfold fault? at fault
  split at fault
  · cases fault
  · rename_i failed
    cases fault
    exact failed

theorem natAbs_floor_le {x : Float} (finite : isFinite x) {n : Int} (floored : floor x = .ok n) :
    n.natAbs ≤ 2 ^ 53 * 2 ^ greatestExponent.toNat := by
  obtain ⟨negative, mantissa, exponent, shape, short, low⟩ := parts_of_isFinite finite
  unfold floor at floored
  rw [shape] at floored
  cases floored
  have size : (signed negative (mantissa * pow2 exponent.toNat)).natAbs = mantissa * 2 ^ exponent.toNat := by
    cases negative
    · exact Int.natAbs_natCast _
    · exact (Int.natAbs_neg _).trans (Int.natAbs_natCast _)
  calc
    _ ≤ (signed negative (mantissa * pow2 exponent.toNat)).natAbs := Int.natAbs_ediv_le_natAbs _ _
    _ = mantissa * 2 ^ exponent.toNat := size
    _ ≤ 2 ^ 53 * 2 ^ greatestExponent.toNat :=
      Nat.mul_le_mul short.le (Nat.pow_le_pow_right (by decide) (by omega))

theorem nearestBits_lt {num den : Nat} (divides : 2 ≤ den) (small : num ≤ 2 ^ 53 * 2 ^ greatestExponent.toNat) :
    nearestBits num den < infinityBits := by
  have bound : nearestBits num den ≤ (greatestExponent + 1074).toNat * 2 ^ 52 + (2 ^ 53 - 1) := by
    refine nearestBits_le (by omega) (by decide) (by decide) (.inr (by decide)) ?_
    calc num * 2 ^ (-greatestExponent).toNat = num := Nat.mul_one num
      _ ≤ 2 ^ 53 * 2 ^ greatestExponent.toNat := small
      _ ≤ (2 ^ 53 - 1) * den * 2 ^ greatestExponent.toNat := Nat.mul_le_mul_right _ (by omega)
  exact bound.trans_lt (by decide)

theorem roundTo_four (x : Float) :
    Scalar.roundTo 4 x = (floor (x * 10000.0 + 0.5)).bind fun n => ofRatio n 10000 := by
  have scale : ofRatio (pow10 4 : Nat) 1 = .ok 10000.0 := by decide +kernel
  change (ofRatio (pow10 4 : Nat) 1).bind
    (fun scale => (floor (x * scale + 0.5)).bind fun n => ofRatio n (pow10 4)) = _
  rw [scale]
  rfl

theorem roundTo_of_isFinite {x : Float} (finite : isFinite (x * 10000.0 + 0.5)) :
    ∃ y, Scalar.roundTo 4 x = .ok y ∧ isFinite y := by
  obtain ⟨n, floored⟩ := floor_of_isFinite finite
  have bounded : nearestBits n.natAbs 10000 < infinityBits :=
    nearestBits_lt (by decide) (natAbs_floor_le finite floored)
  refine ⟨nearest (n < 0) n.natAbs 10000, ?_, isFinite_nearest bounded _⟩
  rw [roundTo_four, floored]
  exact if_neg (Nat.ne_of_lt bounded)

theorem roundTo_of_fault {x : Float} {e : NumberError} (fault : fault? (x * 10000.0 + 0.5) = some e) :
    Scalar.roundTo 4 x = .error e := by
  rw [roundTo_four, floor_of_fault fault]
  rfl

end Flipbook.Binary64
