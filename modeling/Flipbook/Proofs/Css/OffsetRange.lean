import Flipbook.Proofs.Css.Offsets
import Flipbook.Proofs.Number.FourPlaces
import Flipbook.Proofs.Number.ValueOrder

namespace Flipbook.Css

open Text Binary64

/-- The greatest percentage: the middle between a hundred and the next double. -/
def greatestPercentage : ℚ := 100 + 1 / 2 ^ 47

/-- What a part of a selector says, where blanks around it and the case of its letters do not count. -/
inductive OffsetPart (part : Text) : Float → Prop
  | start (word : lowerCase (trim part) = "from".toList) : OffsetPart part 0.0
  | finish (word : lowerCase (trim part) = "to".toList) : OffsetPart part 1.0
  | percent {lexeme : Text} {decimal : Decimal} (word : lowerCase (trim part) = lexeme ++ ['%'])
      (plain : PlainText lexeme decimal) (within : decimal.toRat ≤ greatestPercentage) :
      OffsetPart part (decimal.toFloat false / 100.0)

theorem isFinite_hundred : isFinite 100.0 := by decide +kernel

theorem value_hundred : value 100.0 = 100 := by decide +kernel

theorem hundred_lt_range : (100 : ℚ) < 2 ^ 1024 :=
  lt_of_lt_of_le (by norm_num : (100 : ℚ) < 2 ^ 7) (pow_le_pow_right₀ (by norm_num) (by decide))

theorem rounding_le_one_iff {v : ℚ} : rounding v ≤ 1 ↔ v ≤ 1 + 1 / 2 ^ 53 := by
  have threshold := @rounding_le_iff v (2 ^ 52) (-52) (by decide) (by decide) (by decide) (by decide)
  norm_num at threshold ⊢
  exact threshold

theorem rounding_le_hundred_iff {v : ℚ} : rounding v ≤ 100 ↔ v ≤ greatestPercentage := by
  have threshold := @rounding_le_iff v (100 * 2 ^ 46) (-46) (by decide) (by decide) (by decide) (by decide)
  unfold greatestPercentage
  norm_num at threshold ⊢
  exact threshold

theorem rounding_hundredth_le_one_iff {x : Float} (unsigned : Unsigned x) :
    rounding (value x / 100) ≤ 1 ↔ value x ≤ 100 := by
  constructor
  · intro small
    have near := rounding_le_one_iff.mp small
    by_contra beyond
    rw [not_le, ← value_hundred] at beyond
    have apart := div_two_pow_le_sub OffsetWord.unsigned_hundred unsigned beyond
    rw [value_hundred] at beyond apart
    linarith
  · intro small
    exact rounding_le isDouble_one (by linarith)

theorem hundredth_mem_unit_iff {x : Float} (unsigned : Unsigned x) :
    (0.0 ≤ x / 100.0 ∧ x / 100.0 ≤ 1.0) ↔ value x ≤ 100 := by
  have finite := isFinite_of_unsigned unsigned
  have above := value_nonneg unsigned
  have nonzero : value 100.0 ≠ 0 := by
    rw [value_hundred]
    norm_num
  have rounds := rounds_div finite isFinite_hundred nonzero
  rw [value_hundred] at rounds
  have positive := le_rounding isDouble_zero (show 0 ≤ value x / 100 by positivity)
  have small : |rounding (value x / 100)| < 2 ^ 1024 := by
    rw [abs_of_nonneg positive]
    exact (rounding_le (isDouble_value finite) (div_le_self above (by norm_num))).trans_lt (value_lt unsigned)
  rw [Rounds, if_pos small] at rounds
  obtain ⟨finite', same⟩ := rounds
  have zero : value 0.0 = 0 := by decide +kernel
  have one : value 1.0 = 1 := by decide +kernel
  rw [le_iff_value (by decide +kernel) finite', le_iff_value finite' (by decide +kernel), zero, one, same,
    and_iff_right positive, rounding_hundredth_le_one_iff unsigned]

theorem nearest_mem_unit_iff (num : Nat) {den : Nat} (positive : 0 < den) :
    (0.0 ≤ nearest false num den / 100.0 ∧ nearest false num den / 100.0 ≤ 1.0) ↔
      (num / den : ℚ) ≤ greatestPercentage := by
  rw [← rounding_le_hundred_iff]
  rcases lt_or_ge (rounding (num / den)) (2 ^ 1024) with small | great
  · obtain ⟨unsigned, same⟩ := unsigned_nearest num positive small
    rw [hundredth_mem_unit_iff unsigned, same]
  · rw [nearest_of_overflow positive great]
    exact iff_of_false (by decide +kernel) fun low => (great.trans low).not_gt hundred_lt_range

theorem unsigned_hundredth {num den : Nat} (positive : 0 < den) (within : (num / den : ℚ) ≤ greatestPercentage) :
    Unsigned (nearest false num den / 100.0) := by
  rw [← rounding_le_hundred_iff] at within
  obtain ⟨unsigned, same⟩ := unsigned_nearest num positive (within.trans_lt hundred_lt_range)
  have atMost : nearest false num den ≤ 100.0 := by
    rw [le_iff_value (isFinite_of_unsigned unsigned) isFinite_hundred, same, value_hundred]
    exact within
  exact (div_le_one unsigned OffsetWord.unsigned_hundred atMost (by decide +kernel)).1

theorem exists_ratio {lexeme : Text} {decimal : Decimal} (plain : PlainText lexeme decimal) :
    ∃ num den : Nat, 0 < den ∧ decimal.toFloat false = nearest false num den ∧
      (decimal.toRat ≤ greatestPercentage ↔ (num / den : ℚ) ≤ greatestPercentage) := by
  obtain ⟨digits, places, rfl⟩ : ∃ digits places : Nat, decimal = ⟨digits, -places⟩ := by
    cases plain with
    | whole => exact ⟨_, 0, rfl⟩
    | pointed => exact ⟨_, _, rfl⟩
  have power : 0 < pow10 places := Nat.pow_pos (by decide)
  have ratio : Decimal.toRat ⟨digits, -places⟩ = (digits : ℚ) / (pow10 places : Nat) := by
    rw [Decimal.toRat, zpow_neg, zpow_natCast, ← div_eq_mul_inv]
    simp
  rw [ratio, OffsetWord.toFloat_places]
  split
  · rename_i tiny
    refine ⟨0, 1, one_pos, rfl, iff_of_true ?_ ?_⟩
    · have little : digits ≤ pow10 places := by
        rcases tiny with rfl | short
        · exact Nat.zero_le _
        · calc
            digits ≤ 2 ^ (digits.log2 + 1) := Nat.lt_log2_self.le
            _ ≤ 10 ^ (digits.log2 + 1) := Nat.pow_le_pow_left (by decide) _
            _ ≤ 10 ^ places := Nat.pow_le_pow_right (by decide) (by omega)
      refine (div_le_one_of_le₀ (by exact_mod_cast little) (Nat.cast_nonneg _)).trans ?_
      norm_num [greatestPercentage]
    · norm_num [greatestPercentage]
  · exact ⟨_, _, power, rfl, Iff.rfl⟩

variable {lexeme : Text} {decimal : Decimal}

theorem percentage_mem_unit_iff (plain : PlainText lexeme decimal) :
    (0.0 ≤ decimal.toFloat false / 100.0 ∧ decimal.toFloat false / 100.0 ≤ 1.0) ↔
      decimal.toRat ≤ greatestPercentage := by
  obtain ⟨num, den, positive, read, same⟩ := exists_ratio plain
  rw [read, nearest_mem_unit_iff num positive, same]

theorem unsigned_percentage (plain : PlainText lexeme decimal) (within : decimal.toRat ≤ greatestPercentage) :
    Unsigned (decimal.toFloat false / 100.0) := by
  obtain ⟨num, den, positive, read, same⟩ := exists_ratio plain
  rw [read]
  exact unsigned_hundredth positive (same.mp within)

theorem percent_ne_word (word : Text) (letters : '%' ∉ word) : lexeme ++ ['%'] ≠ word := by
  rintro rfl
  exact letters (List.mem_append_right _ List.mem_cons_self)

theorem offset?_eq_some_iff {part : Text} {x : Float} : offset? part = some x ↔ OffsetPart part x := by
  constructor
  · intro read
    unfold offset? at read
    simp only at read
    split at read
    · rename_i word
      cases read
      exact .start word
    · split at read
      · rename_i word
        cases read
        exact .finish word
      · split at read
        · rename_i decimal taken
          obtain ⟨lexeme, word, plain⟩ := takePlain?_sound taken
          split at read
          · rename_i within
            cases read
            exact .percent word plain ((percentage_mem_unit_iff plain).mp within)
          · cases read
        · cases read
  · intro text
    unfold offset?
    simp only
    cases text with
    | start word => exact if_pos word
    | finish word => rw [word]; rfl
    | percent word plain within =>
      have noDigit : Halts isDigit ['%'] := halts_cons.mpr (by decide)
      have noPoint : Halts (· = '.') ['%'] := halts_cons.mpr (by decide)
      have taken := takePlain?_complete plain noDigit noPoint
      rw [word, if_neg (percent_ne_word _ (by decide)), if_neg (percent_ne_word _ (by decide)), taken]
      exact if_pos ((percentage_mem_unit_iff plain).mpr within)

theorem OffsetPart.unsigned {part : Text} {x : Float} (text : OffsetPart part x) : Unsigned x := by
  cases text with
  | start => exact unsigned_zero
  | finish => exact unsigned_one
  | percent word plain within => exact unsigned_percentage plain within

end Flipbook.Css
