import Flipbook.Proofs.Number.Difference
import Flipbook.Proofs.Number.ValueOrder

namespace Flipbook.Binary64

open Float.Model (UnpackedFloat)
open Float.Model.UnpackedFloat

/-- A finite double is nearest. The limit is half of the last step beyond the greatest one. -/
def InRange (v : ℚ) : Prop := |v| < 2 ^ 1024 - 2 ^ 970

theorem abs_rounding (v : ℚ) : |rounding v| = rounding |v| := by
  rcases le_total 0 v with above | below
  · rw [abs_of_nonneg above, abs_of_nonneg (le_rounding isDouble_zero above)]
  · rw [abs_of_nonpos below, abs_of_nonpos (rounding_le isDouble_zero below), rounding_neg]

theorem inRange_iff {v : ℚ} : |rounding v| < 2 ^ 1024 ↔ InRange v := by
  rw [abs_rounding]
  exact rounding_lt_iff

theorem Rounds.isFinite_iff {x : Float} {v : ℚ} (rounds : Rounds x v) : isFinite x ↔ InRange v := by
  rw [← inRange_iff]
  refine ⟨fun finite => (rounds.value_eq finite).2, fun small => ?_⟩
  rw [Rounds, if_pos small] at rounds
  exact rounds.1

theorem rounding_pos_iff_lastPlace {v : ℚ} : 0 < rounding v ↔ 2 ^ lastPlace v / 2 < v := by
  have unit := two_zpow_pos (lastPlace v)
  have odd : ¬Even (1 : Int) := by decide
  have one : 0 < nearestEven (v / 2 ^ lastPlace v) ↔ 1 ≤ nearestEven (v / 2 ^ lastPlace v) := Iff.rfl
  rw [rounding, mul_pos_iff_of_pos_right unit, Int.cast_pos, one, le_nearestEven_iff, or_iff_left fun tie => odd tie.2,
    lt_div_iff₀ unit, Int.cast_one]
  ring_nf

theorem rounding_pos_iff {v : ℚ} : 0 < rounding v ↔ 2 ^ (-1075 : Int) < v := by
  have least : (2 : ℚ) ^ (-1075 : Int) = 2 ^ (-1074 : Int) / 2 := zpow_sub_one₀ two_ne_zero (-1074)
  rw [rounding_pos_iff_lastPlace, least]
  rcases le_or_gt v 0 with below | above
  · have unit := two_zpow_pos (lastPlace v)
    have some := two_zpow_pos (-1074)
    exact iff_of_false (by linarith) (by linarith)
  rcases lastPlace_eq_or_le above.ne' with last | reached
  · rw [last]
  · have low : (2 : ℚ) ^ (-1074 : Int) ≤ 2 ^ lastPlace v := zpow_le_zpow_right₀ (by norm_num) (low_lastPlace v)
    have full : (2 : ℚ) ^ lastPlace v ≤ 2 ^ (lastPlace v + 52) := zpow_le_zpow_right₀ (by norm_num) (by omega)
    have unit := two_zpow_pos (lastPlace v)
    rw [abs_of_pos above] at reached
    exact iff_of_true (by linarith) (by linarith)

theorem rounding_lt_double {v : ℚ} (positive : 0 < rounding v) : rounding v < 2 * v := by
  have near := (abs_le.mp (abs_rounding_sub_le v)).2
  have above := rounding_pos_iff_lastPlace.mp positive
  linarith

theorem pos_iff_value {x : Float} (finite : isFinite x) : 0.0 < x ↔ 0 < value x := by
  refine ⟨value_pos finite, fun positive => ?_⟩
  have zero : isFinite 0.0 := isFinite_of_unsigned unsigned_zero
  refine Binary64.lt_of_not_le (isNumber_of_isFinite finite) (isNumber_of_isFinite zero) fun atMost => ?_
  rw [le_iff_value finite zero, value_of_zero unpack_zero] at atMost
  exact atMost.not_gt positive

theorem unpack_of_infinite {x : Float} (positive : 0.0 < x) (infinite : ¬isFinite x) :
    x.toModel.unpack = .infinity .positive := by
  rw [← fault?_eq_none, fault?_eq] at infinite
  rw [lt_iff_compare, unpack_zero] at positive
  cases unpacked : x.toModel.unpack with
  | infinity sign =>
    rw [unpacked] at positive
    cases sign with
    | positive => rfl
    | negative => cases positive
  | notANumber =>
    rw [unpacked] at positive
    cases positive
  | zero | finite =>
    rw [unpacked] at infinite
    exact absurd rfl infinite

theorem beq_zero_of_pos {x : Float} (positive : 0.0 < x) : (x == 0.0) = false := by
  rw [Bool.eq_false_iff]
  intro same
  by_cases finite : isFinite x
  · rw [(beq_iff (unsigned_of_pos finite positive) unsigned_zero).mp same] at positive
    exact absurd positive (by decide +kernel)
  · change (x.toModel.unpack.compare (0.0 : Float).toModel.unpack == some .eq) = true at same
    rw [unpack_of_infinite positive finite, unpack_zero] at same
    cases same

theorem nearest_pos {num den : Nat} (positive : 0 < den) (nonzero : (nearest false num den == 0.0) = false) :
    0.0 < nearest false num den := by
  rcases lt_or_ge (rounding (num / den)) (2 ^ 1024) with small | great
  · have unsigned := (unsigned_nearest num positive small).1
    refine pos_of_bits (Nat.pos_of_ne_zero fun zero => ?_) unsigned.le
    have same : nearest false num den = 0.0 := Float.toBits_inj.mp (UInt64.toNat_inj.mp zero)
    rw [(beq_iff unsigned unsigned_zero).mpr same] at nonzero
    cases nonzero
  · rw [nearest_of_overflow positive great]
    decide +kernel

theorem fault?_div (x y : Float) : fault? (x / y) = packedFault? (div .binary64 x.toModel.unpack y.toModel.unpack) := by
  rw [fault?_eq, ← unpackedFault?_pack]
  rfl

section Quotients

variable {x y : Float}

theorem not_isFinite_div (positive : 0.0 < x) (positive' : 0.0 < y) (infinite : ¬isFinite x) : ¬isFinite (x / y) := by
  rw [← fault?_eq_none, fault?_div, unpack_of_infinite positive infinite]
  by_cases finite' : isFinite y
  · obtain ⟨mantissa, exponent, nonzero, unpacked⟩ := unpack_of_pos finite' positive'
    rw [unpacked]
    exact Option.some_ne_none _
  · rw [unpack_of_infinite positive' finite']
    exact Option.some_ne_none _

theorem rounds_div_infinite (finite : isFinite x) (positive' : 0.0 < y) (infinite : ¬isFinite y) : Rounds (x / y) 0 := by
  refine rounds_of_isRounded (u := div .binary64 x.toModel.unpack y.toModel.unpack) rfl ?_
  rw [unpack_of_infinite positive' infinite]
  rcases unpack_of_isFinite finite with ⟨sign, unpacked⟩ | ⟨sign, mantissa, exponent, nonzero, unpacked⟩
  · rw [unpacked]
    exact isRounded_zero _
  · rw [unpacked]
    exact isRounded_zero _

theorem pos_div_iff (positive : 0.0 < x) (positive' : 0.0 < y) : isFinite (x / y) ∧ 0.0 < x / y ↔
    isFinite x ∧ isFinite y ∧ 2 ^ (-1075 : Int) < value x / value y ∧ InRange (value x / value y) := by
  by_cases finite : isFinite x
  · by_cases finite' : isFinite y
    · have rounds := rounds_div finite finite' (value_pos finite' positive').ne'
      rw [and_iff_right finite, and_iff_right finite', ← rounds.isFinite_iff, and_comm, and_congr_left_iff]
      intro inside
      rw [pos_iff_value inside, (rounds.value_eq inside).1, rounding_pos_iff]
    · have rounds := rounds_div_infinite finite positive' finite'
      refine iff_of_false (fun both => ?_) fun both => finite' both.2.1
      have none := (rounds.value_eq both.1).1
      rw [rounding_zero] at none
      exact (value_pos both.1 both.2).ne' none
  · exact iff_of_false (fun both => not_isFinite_div positive positive' finite both.1) fun both => finite both.1

theorem isFinite_mul_iff (finite : isFinite x) : isFinite (x * y) ↔ isFinite y ∧ InRange (value x * value y) := by
  by_cases finite' : isFinite y
  · rw [(rounds_mul finite finite').isFinite_iff, and_iff_right finite']
  · refine iff_of_false (fun inside => ?_) fun both => finite' both.1
    rw [← fault?_eq_none, fault?_mul] at inside
    rw [← fault?_eq_none, fault?_eq] at finite'
    rcases unpack_of_isFinite finite with ⟨sign, unpacked⟩ | ⟨sign, mantissa, exponent, nonzero, unpacked⟩
    all_goals
      rw [unpacked] at inside
      cases unpacked' : y.toModel.unpack with
      | zero | finite =>
        rw [unpacked'] at finite'
        exact finite' rfl
      | infinity | notANumber =>
        rw [unpacked'] at inside
        cases inside

end Quotients

theorem nearestBits_eq_infinityBits_iff {num den : Nat} (positive : 0 < den) :
    nearestBits num den = infinityBits ↔ 2 ^ 1024 ≤ rounding (num / den) := by
  refine ⟨fun infinite => ?_, nearestBits_of_overflow positive⟩
  by_contra small
  have finite := isFinite_of_unsigned (unsigned_nearest num positive (not_le.mp small)).1
  rw [nearest, if_neg Bool.false_ne_true, infinite] at finite
  exact absurd finite (by decide +kernel)

theorem natAbs_div_one (n : Int) : (n.natAbs : ℚ) / (1 : Nat) = |(n : ℚ)| := by
  rw [Nat.cast_one, div_one, Nat.cast_natAbs, Int.cast_abs]

theorem ofInt_eq (n : Int) :
    ofInt n = if |rounding n| < 2 ^ 1024 then .ok (nearest (n < 0) n.natAbs 1) else .error .tooLarge := by
  have infinite : nearestBits n.natAbs 1 = 2047 * pow2 52 ↔ ¬|rounding n| < 2 ^ 1024 := by
    rw [abs_rounding, ← natAbs_div_one, not_lt]
    exact nearestBits_eq_infinityBits_iff one_pos
  unfold ofInt ofRatio
  by_cases small : |rounding n| < 2 ^ 1024
  · rw [if_pos small, if_neg fun same => infinite.mp same small]
  · rw [if_neg small, if_pos (infinite.mpr small)]

theorem ofInt_ok_iff {n : Int} : (∃ x, ofInt n = .ok x) ↔ InRange n := by
  rw [ofInt_eq, ← inRange_iff]
  split <;> simp [*]

theorem value_ofInt {n : Int} {x : Float} (nearest : ofInt n = .ok x) : isFinite x ∧ value x = rounding n := by
  rw [ofInt_eq] at nearest
  split at nearest
  · rename_i small
    cases nearest
    rw [abs_rounding, ← natAbs_div_one] at small
    obtain ⟨finite, same⟩ := value_nearest n.natAbs one_pos small (n < 0)
    refine ⟨finite, ?_⟩
    rw [same, natAbs_div_one]
    rcases lt_or_ge n 0 with below | above
    · have below' : (n : ℚ) < 0 := Int.cast_lt_zero.mpr below
      rw [decide_eq_true below, abs_of_neg below', rounding_neg]
      simp [signed]
    · have above' : (0 : ℚ) ≤ n := Int.cast_nonneg above
      rw [decide_eq_false above.not_gt, abs_of_nonneg above']
      simp [signed]
  · cases nearest

theorem roundEven_ok_iff {x : Float} : (∃ n, roundEven x = .ok n) ↔ isFinite x := by
  unfold roundEven isFinite
  cases parts x <;> simp

end Flipbook.Binary64
