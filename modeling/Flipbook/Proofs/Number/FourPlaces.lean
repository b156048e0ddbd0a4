import Flipbook.Number.Notation
import Flipbook.Proofs.Number.OppositeRounding

namespace Flipbook.Binary64

def tenThousandths (n : Int) : Float := nearest (n < 0) n.natAbs 10000

/-- One text is the other with a minus sign, or both are zero. -/
def Opposite (t t' : Text) : Prop := t' = '-' :: t ∨ t = '-' :: t' ∨ t = ['0'] ∧ t' = ['0']

variable {x : Float}

theorem value_half : value 0.5 = 1 / 2 := by
  decide +kernel

theorem roundTo_eq (finite : isFinite (x * 10000.0)) :
    Scalar.roundTo 4 x = .ok (tenThousandths (halfUp (value (x * 10000.0)))) ∧
      (halfUp (value (x * 10000.0))).natAbs ≤ 2 ^ 53 * 2 ^ greatestExponent.toNat := by
  have finite' : isFinite (x * 10000.0 + 0.5) := by
    rwa [← fault?_eq_none, fault?_add_half, fault?_eq_none]
  have sum := (rounds_add finite (show isFinite 0.5 by decide +kernel)).value_eq finite'
  rw [value_half] at sum
  have floored := floor_eq finite'
  rw [sum.1] at floored
  have bounded := natAbs_floor_le finite' floored
  have within := nearestBits_lt (show 2 ≤ 10000 by decide) bounded
  refine ⟨?_, bounded⟩
  rw [roundTo_four, floored]
  exact if_neg (Nat.ne_of_lt within)

theorem rounding_tenThousandths_lt {n : Int} (bounded : n.natAbs ≤ 2 ^ 53 * 2 ^ greatestExponent.toNat) :
    rounding ((n.natAbs : ℚ) / (10000 : Nat)) < 2 ^ 1024 := by
  have double : IsDouble (2 ^ (1023 : Int)) := isDouble_two_zpow (by decide)
  have limit : ((2 ^ 53 * 2 ^ greatestExponent.toNat : Nat) : ℚ) = 2 * 2 ^ (1023 : Int) := by
    rw [Nat.cast_mul, Nat.cast_pow, Nat.cast_pow, Nat.cast_ofNat, ← pow_add]
    exact pow_succ' 2 1023
  have twice : (2 : ℚ) ^ 1024 = 2 * 2 ^ (1023 : Int) := pow_succ' 2 1023
  have bounded' : (n.natAbs : ℚ) ≤ (2 ^ 53 * 2 ^ greatestExponent.toNat : Nat) := Nat.cast_le.mpr bounded
  have power := two_zpow_pos 1023
  rw [limit] at bounded'
  rw [twice]
  clear limit twice
  generalize (2 : ℚ) ^ (1023 : Int) = b at *
  refine (rounding_le double ?_).trans_lt (by linarith)
  rw [div_le_iff₀ (by norm_num)]
  push_cast
  linarith

theorem parts_tenThousandths {n : Int} (bounded : n.natAbs ≤ 2 ^ 53 * 2 ^ greatestExponent.toNat) :
    ∃ (mantissa : Nat) (exponent : Int), (mantissa : ℚ) * 2 ^ exponent = rounding (n.natAbs / (10000 : Nat)) ∧
      ∀ negative, parts (nearest negative n.natAbs 10000) = .finite negative mantissa exponent :=
  parts_nearest n.natAbs (by decide) (rounding_tenThousandths_lt bounded)

theorem value_tenThousandths {n : Int} (bounded : n.natAbs ≤ 2 ^ 53 * 2 ^ greatestExponent.toNat) :
    value (tenThousandths n) = rounding (n / 10000) := by
  obtain ⟨mantissa, exponent, same, shape⟩ := parts_tenThousandths bounded
  unfold tenThousandths
  rw [value_of_parts (shape _)]
  rcases lt_or_ge n 0 with negative | positive
  · have size : (n.natAbs : ℚ) = -n := by
      rw [Nat.cast_natAbs, Int.cast_abs, abs_of_neg (Int.cast_lt_zero.mpr negative)]
    rw [decide_eq_true negative]
    rw [size, neg_div, rounding_neg] at same
    push_cast at same
    simp only [signed, if_true, Int.cast_neg, Int.cast_natCast, neg_mul, same, neg_neg]
  · have size : (n.natAbs : ℚ) = n := by
      rw [Nat.cast_natAbs, Int.cast_abs, abs_of_nonneg (Int.cast_nonneg positive)]
    rw [decide_eq_false positive.not_gt]
    rw [size] at same
    push_cast at same
    simpa [signed] using same

theorem Opposite.symm {t t' : Text} (opposite : Opposite t t') : Opposite t' t := by
  rcases opposite with minus | minus | ⟨zero, zero'⟩
  · exact .inr (.inl minus)
  · exact .inl minus
  · exact .inr (.inr ⟨zero', zero⟩)

theorem opposite_ofInt (n : Nat) : Opposite (Text.ofInt n) (Text.ofInt (-n)) := by
  cases n with
  | zero => exact .inr (.inr ⟨rfl, rfl⟩)
  | succ n => exact .inl rfl

theorem opposite_of_parts {x y : Float} {mantissa : Nat} {exponent : Int}
    (shape : parts x = .finite false mantissa exponent) (shape' : parts y = .finite true mantissa exponent) :
    Opposite (sheetText x) (sheetText y) := by
  unfold sheetText whole? plainText Style.text
  rw [shape, shape']
  by_cases whole : mantissa % pow2 (-exponent).toNat = 0
  · simp only [if_pos whole]
    exact opposite_ofInt _
  · simp only [if_neg whole]
    cases mantissa with
    | zero => exact absurd (Nat.zero_mod _) whole
    | succ mantissa => exact .inl rfl

theorem opposite_sheetText {n : Int} (bounded : n.natAbs ≤ 2 ^ 53 * 2 ^ greatestExponent.toNat) :
    Opposite (sheetText (tenThousandths n)) (sheetText (tenThousandths (-n))) := by
  obtain ⟨mantissa, exponent, -, shape⟩ := parts_tenThousandths bounded
  unfold tenThousandths
  rw [Int.natAbs_neg]
  rcases lt_trichotomy n 0 with negative | rfl | positive
  · rw [decide_eq_true negative, decide_eq_false (show ¬-n < 0 by omega)]
    exact (opposite_of_parts (shape false) (shape true)).symm
  · have zero : sheetText (tenThousandths 0) = ['0'] := by decide +kernel
    exact .inr (.inr ⟨zero, zero⟩)
  · rw [decide_eq_false (show ¬n < 0 by omega), decide_eq_true (show -n < 0 by omega)]
    exact opposite_of_parts (shape false) (shape true)

theorem rounding_lt_rounding {a b : ℚ} {k : Int} (low : -1074 ≤ k) (short : |a| < 2 ^ (k + 53))
    (short' : |b| < 2 ^ (k + 53)) (apart : 2 ^ k < b - a) : rounding a < rounding b := by
  have near (v : ℚ) (short : |v| < 2 ^ (k + 53)) : |rounding v - v| ≤ 2 ^ k / 2 := by
    rcases eq_or_ne v 0 with rfl | nonzero
    · rw [rounding_zero, sub_zero, abs_zero]
      exact (half_pos (two_zpow_pos k)).le
    · refine (abs_rounding_sub_le v).trans (div_le_div_of_nonneg_right ?_ two_pos.le)
      exact zpow_le_zpow_right₀ (by norm_num) (lastPlace_le nonzero low short)
  have near' := abs_le.mp (near a short)
  have near'' := abs_le.mp (near b short')
  linarith

theorem abs_halfUp_le {c : ℚ} {m : Nat} (bounded : |c| ≤ m) (short : m < 2 ^ 53) : |halfUp c| ≤ m + 1 := by
  obtain ⟨low, high⟩ := abs_le.mp bounded
  have above : -(m : ℚ) ≤ rounding (c + 1 / 2) := le_rounding (isDouble_of_le short.le).neg (by linarith)
  have below : rounding (c + 1 / 2) ≤ (m + 1 : Nat) := rounding_le (isDouble_of_le short) (by push_cast; linarith)
  have above' : -(m : Int) ≤ halfUp c := Int.le_floor.mpr (by exact_mod_cast above)
  have below' := Int.floor_le_floor below
  rw [Int.floor_natCast] at below'
  change halfUp c ≤ _ at below'
  rw [abs_le]
  constructor <;> push_cast at * <;> omega

theorem rounding_halfUp_lt {c : ℚ} {m : Nat} {k : Int} (low : -1074 ≤ k) (bounded : |c| ≤ m) (short : m < 2 ^ 53)
    (fits : (m + 1 : ℚ) < 10000 * 2 ^ (k + 53)) (apart : 10000 * 2 ^ k < ((halfUp c + halfUp (-c) : Int) : ℚ)) :
    rounding (-(halfUp c / 10000)) < rounding (halfUp (-c) / 10000) := by
  have within (c : ℚ) (bounded : |c| ≤ m) : |(halfUp c : ℚ) / 10000| < 2 ^ (k + 53) := by
    have bounded' : |(halfUp c : ℚ)| ≤ m + 1 := by exact_mod_cast abs_halfUp_le bounded short
    rw [abs_div, abs_of_pos (show (0 : ℚ) < 10000 by norm_num), div_lt_iff₀' (by norm_num)]
    exact bounded'.trans_lt fits
  apply rounding_lt_rounding low
  · rw [abs_neg]
    exact within c bounded
  · exact within (-c) (by rwa [abs_neg])
  · rw [sub_neg_eq_add, ← add_div, add_comm, lt_div_iff₀' (by norm_num)]
    exact_mod_cast apart

theorem rounding_halfUp_neg_iff {c : ℚ} (double : IsDouble c) :
    rounding (halfUp (-c) / 10000) = -rounding (halfUp c / 10000) ↔ tilt |c| = 0 := by
  have missed := halfUp_add_halfUp_neg double
  rw [← rounding_neg]
  constructor
  · intro same
    rcases tilt_cases double.abs (abs_nonneg c) with level | ⟨one, short⟩ | ⟨two, short⟩
    · exact level
    · have bounded : |c| ≤ (2 ^ 52 : Nat) := by exact_mod_cast short.le
      refine absurd same (rounding_halfUp_lt (k := -14) (by decide) bounded (by decide) ?_ ?_).ne'
      · norm_num
      · rw [missed, one]
        norm_num
    · have bounded : |c| ≤ (2 ^ 53 - 1 : Nat) := by
        have most := le_of_lt_two_zpow (k := 53) double.abs (by exact_mod_cast short)
        norm_num at most ⊢
        exact most
      refine absurd same (rounding_halfUp_lt (k := -13) (by decide) bounded (by decide) ?_ ?_).ne'
      · norm_num
      · rw [missed, two]
        norm_num
  · intro level
    have opposite : halfUp (-c) = -halfUp c := by omega
    rw [opposite, Int.cast_neg, neg_div]

theorem mul_neg_eq (finite : isFinite (x * 10000.0)) :
    isFinite (-x * 10000.0) ∧ value (-x * 10000.0) = -value (x * 10000.0) := by
  have scale : isFinite 10000.0 := by decide +kernel
  have whole : isFinite x := by
    rw [← fault?_eq_none]
    by_contra fault
    obtain ⟨e, fault⟩ := Option.ne_none_iff_exists'.mp fault
    rw [← fault?_eq_none, fault?_mul_of_fault fault scale (by decide +kernel)] at finite
    cases finite
  obtain ⟨same, within⟩ := (rounds_mul whole scale).value_eq finite
  have rounds := rounds_mul (isFinite_neg whole) scale
  unfold Rounds at rounds
  rw [value_neg whole, neg_mul, rounding_neg, abs_neg, if_pos within] at rounds
  rw [same]
  exact rounds

/-- What a number and its opposite are rounded to: opposite doubles exactly where the ten-thousandths are not tilted,
    and then opposite texts. -/
structure RoundedApart (x y y' : Float) : Prop where
  there : Scalar.roundTo 4 x = .ok y
  back : Scalar.roundTo 4 (-x) = .ok y'
  opposite_iff : value y' = -value y ↔ tilt |value (x * 10000.0)| = 0
  opposite_texts : tilt |value (x * 10000.0)| = 0 → Opposite (sheetText y) (sheetText y')

theorem exists_roundedApart (finite : isFinite (x * 10000.0)) : ∃ y y', RoundedApart x y y' := by
  obtain ⟨finite', opposite⟩ := mul_neg_eq finite
  obtain ⟨there, bounded⟩ := roundTo_eq finite
  obtain ⟨back, bounded'⟩ := roundTo_eq finite'
  have double := isDouble_value finite
  rw [opposite] at back bounded'
  refine ⟨_, _, there, back, ?_, ?_⟩
  · rw [value_tenThousandths bounded, value_tenThousandths bounded']
    exact rounding_halfUp_neg_iff double
  · intro level
    have missed := halfUp_add_halfUp_neg double
    have mirrored : halfUp (-value (x * 10000.0)) = -halfUp (value (x * 10000.0)) := by omega
    rw [mirrored]
    exact opposite_sheetText bounded

end Flipbook.Binary64
