import Flipbook.Proofs.Number.Rounding

namespace Flipbook.Binary64

open Float.Model (UnpackedFloat Format)
open Float.Model.UnpackedFloat

/-- What the bits of a double unpack to. The mantissa is full unless the exponent is the least. -/
def Canonical : UnpackedFloat → Prop
  | .finite _ mantissa exponent _ =>
    mantissa < 2 ^ 53 ∧ -1074 ≤ exponent ∧ exponent ≤ greatestExponent ∧ (exponent = -1074 ∨ 2 ^ 52 ≤ mantissa)
  | _ => True

theorem canonical_unpack (b : BitVec 64) : Canonical (unpack .binary64 b) := by
  have exponent_lt : (@unpackExponent .binary64 b).toNat < 2 ^ 11 := (@unpackExponent .binary64 b).isLt
  have mantissa_lt : (@unpackMantissa .binary64 b).toNat < 2 ^ 52 := (@unpackMantissa .binary64 b).isLt
  have bias : ((Format.binary64.exponentBias : Nat) : Int) = 1023 := rfl
  unfold unpack
  simp only [bias]
  split
  · split <;> trivial
  · rename_i most
    have limit : (@unpackExponent .binary64 b).toNat ≠ 2047 := fun all => most (BitVec.eq_of_toNat_eq all)
    split
    · rename_i least
      have none : (@unpackExponent .binary64 b).toNat = 0 := congrArg BitVec.toNat least
      split
      · trivial
      · unfold Canonical greatestExponent
        rw [none]
        exact ⟨mantissa_lt.trans (by decide), by decide, by decide, .inl (by decide)⟩
    · rename_i some
      have above : (@unpackExponent .binary64 b).toNat ≠ 0 := fun none => some (BitVec.eq_of_toNat_eq none)
      have full := toNat_implicit (@unpackMantissa .binary64 b)
      unfold Canonical greatestExponent
      simp only
      omega

/-- The place of a number on the line of all doubles, one step for each bit pattern. -/
def place : UnpackedFloat → Int
  | .infinity sign => sign.apply infinityBits
  | .finite sign mantissa exponent _ => sign.apply ((exponent + 1074).toNat * 2 ^ 52 + mantissa : Nat)
  | .zero _ | .notANumber => 0

theorem compare_natCast (n m : Nat) : compare (n : Int) m = compare n m := by
  rcases lt_trichotomy n m with less | rfl | more
  · rw [compare_lt_iff_lt.mpr less, compare_lt_iff_lt.mpr (by omega)]
  · rw [compare_eq_iff_eq.mpr rfl, compare_eq_iff_eq.mpr rfl]
  · rw [compare_gt_iff_gt.mpr more, compare_gt_iff_gt.mpr (by omega)]

theorem compare_neg (n m : Int) : compare (-n) (-m) = (compare n m).swap := by
  rcases lt_trichotomy n m with less | rfl | more
  · rw [compare_lt_iff_lt.mpr less, compare_gt_iff_gt.mpr (by omega)]
    rfl
  · rw [compare_eq_iff_eq.mpr rfl, compare_eq_iff_eq.mpr rfl]
    rfl
  · rw [compare_gt_iff_gt.mpr more, compare_lt_iff_lt.mpr (by omega)]
    rfl

theorem compare_magnitudes {mantissa mantissa' : Nat} {exponent exponent' : Int} {positive : 0 < mantissa}
    {positive' : 0 < mantissa'} {sign sign' : Sign} (left : Canonical (.finite sign mantissa exponent positive))
    (right : Canonical (.finite sign' mantissa' exponent' positive')) :
    (compare exponent exponent').then (compare mantissa mantissa') =
      compare (((exponent + 1074).toNat * 2 ^ 52 + mantissa : Nat) : Int)
        (((exponent' + 1074).toNat * 2 ^ 52 + mantissa' : Nat) : Int) := by
  obtain ⟨short, low, -, full⟩ := left
  obtain ⟨short', low', -, full'⟩ := right
  have compared := (Reads.finite positive low short full rfl).compare (.finite positive' low' short' full' rfl)
  rw [compare_natCast]
  exact Option.some.inj compared

theorem place_finite {mantissa : Nat} {exponent : Int} {positive : 0 < mantissa} (sign : Sign)
    (canonical : Canonical (.finite sign mantissa exponent positive)) :
    ∃ n : Nat, 0 < n ∧ n < infinityBits ∧ place (.finite sign mantissa exponent positive) = sign.apply n := by
  obtain ⟨short, low, high, -⟩ := canonical
  unfold greatestExponent at high
  unfold infinityBits
  exact ⟨_, by omega, by omega, rfl⟩

theorem compare_place {x y : UnpackedFloat} (left : Canonical x) (right : Canonical y) (number : x ≠ .notANumber)
    (number' : y ≠ .notANumber) : x.compare y = some (compare (place x) (place y)) := by
  have infinite : 0 < infinityBits := by decide
  have less {n m : Int} (less : n < m) : some .lt = some (compare n m) :=
    congrArg some (compare_lt_iff_lt.mpr less).symm
  have more {n m : Int} (more : m < n) : some .gt = some (compare n m) :=
    congrArg some (compare_gt_iff_gt.mpr more).symm
  cases x with
  | notANumber => exact absurd rfl number
  | infinity sign =>
    cases y with
    | notANumber => exact absurd rfl number'
    | infinity sign' => cases sign <;> cases sign' <;> decide
    | zero => cases sign <;> rfl
    | finite sign' =>
      obtain ⟨n, above, below, placed⟩ := place_finite sign' right
      rw [placed]
      cases sign with
      | negative => exact less (by cases sign' <;> simp only [place, Sign.apply] <;> omega)
      | positive => exact more (by cases sign' <;> simp only [place, Sign.apply] <;> omega)
  | zero =>
    cases y with
    | notANumber => exact absurd rfl number'
    | infinity sign => cases sign <;> rfl
    | zero => rfl
    | finite sign =>
      obtain ⟨n, above, below, placed⟩ := place_finite sign right
      rw [placed]
      cases sign with
      | negative => exact more (by simp only [place, Sign.apply]; omega)
      | positive => exact less (by simp only [place, Sign.apply]; omega)
  | finite sign =>
    obtain ⟨n, above, below, placed⟩ := place_finite sign left
    cases y with
    | notANumber => exact absurd rfl number'
    | infinity sign' =>
      rw [placed]
      cases sign' with
      | negative => exact more (by cases sign <;> simp only [place, Sign.apply] <;> omega)
      | positive => exact less (by cases sign <;> simp only [place, Sign.apply] <;> omega)
    | zero =>
      rw [placed]
      cases sign with
      | negative => exact less (by simp only [place, Sign.apply]; omega)
      | positive => exact more (by simp only [place, Sign.apply]; omega)
    | finite sign' =>
      obtain ⟨n', above', below', placed'⟩ := place_finite sign' right
      -- other signs are in order by themselves, and below zero the order of the magnitudes is turned round
      have magnitudes := compare_magnitudes left right
      cases sign with
      | negative =>
        cases sign' with
        | negative =>
          refine congrArg some ?_
          rw [magnitudes, ← compare_neg]
          rfl
        | positive =>
          rw [placed, placed']
          exact less (by simp only [Sign.apply]; omega)
      | positive =>
        cases sign' with
        | negative =>
          rw [placed, placed']
          exact more (by simp only [Sign.apply]; omega)
        | positive => exact congrArg some magnitudes

def IsNumber (x : Float) : Prop := x.toModel.unpack ≠ .notANumber

def rank (x : Float) : Int := place x.toModel.unpack

theorem canonical (x : Float) : Canonical x.toModel.unpack := canonical_unpack x.toModel.toBits.toBitVec

theorem compare_rank {x y : Float} (left : IsNumber x) (right : IsNumber y) :
    x.toModel.unpack.compare y.toModel.unpack = some (compare (rank x) (rank y)) :=
  compare_place (canonical x) (canonical y) left right

theorem isNumber_of_compare {x y : Float} {ordering : Ordering}
    (compared : x.toModel.unpack.compare y.toModel.unpack = some ordering) : IsNumber x ∧ IsNumber y := by
  constructor
  · intro none
    rw [none] at compared
    cases compared
  · intro none
    rw [none] at compared
    cases unpacked : x.toModel.unpack with
    | infinity | notANumber | zero | finite =>
      rw [unpacked] at compared
      cases compared

theorem le_iff_rank {x y : Float} : x ≤ y ↔ IsNumber x ∧ IsNumber y ∧ rank x ≤ rank y := by
  rw [le_iff_compare]
  constructor
  · intro less
    cases compared : x.toModel.unpack.compare y.toModel.unpack with
    | none =>
      rw [compared] at less
      cases less
    | some ordering =>
      obtain ⟨left, right⟩ := isNumber_of_compare compared
      rw [compare_rank left right] at less
      exact ⟨left, right, Int.isLE_compare.mp less⟩
  · intro ⟨left, right, less⟩
    rw [compare_rank left right]
    exact Int.isLE_compare.mpr less

theorem lt_iff_rank {x y : Float} : x < y ↔ IsNumber x ∧ IsNumber y ∧ rank x < rank y := by
  rw [lt_iff_compare, beq_iff_eq]
  constructor
  · intro less
    obtain ⟨left, right⟩ := isNumber_of_compare less
    rw [compare_rank left right, Option.some_inj] at less
    exact ⟨left, right, compare_lt_iff_lt.mp less⟩
  · intro ⟨left, right, less⟩
    rw [compare_rank left right, compare_lt_iff_lt.mpr less]

protected theorem le_of_lt {x y : Float} (less : x < y) : x ≤ y := by
  obtain ⟨left, right, ordered⟩ := lt_iff_rank.mp less
  exact le_iff_rank.mpr ⟨left, right, ordered.le⟩

protected theorem lt_of_lt_of_le {x y z : Float} (less : x < y) (atMost : y ≤ z) : x < z := by
  obtain ⟨left, -, ordered⟩ := lt_iff_rank.mp less
  obtain ⟨-, right, ordered'⟩ := le_iff_rank.mp atMost
  exact lt_iff_rank.mpr ⟨left, right, ordered.trans_le ordered'⟩

protected theorem le_trans {x y z : Float} (less : x ≤ y) (less' : y ≤ z) : x ≤ z := by
  obtain ⟨left, -, ordered⟩ := le_iff_rank.mp less
  obtain ⟨-, right, ordered'⟩ := le_iff_rank.mp less'
  exact le_iff_rank.mpr ⟨left, right, ordered.trans ordered'⟩

protected theorem not_le_of_lt {x y : Float} (less : x < y) : ¬y ≤ x := by
  intro atMost
  exact (lt_iff_rank.mp less).2.2.not_ge (le_iff_rank.mp atMost).2.2

protected theorem lt_of_not_le {x y : Float} (left : IsNumber x) (right : IsNumber y) (more : ¬x ≤ y) : y < x := by
  rw [le_iff_rank] at more
  exact lt_iff_rank.mpr ⟨right, left, lt_of_not_ge fun ordered => more ⟨left, right, ordered⟩⟩

end Flipbook.Binary64
