import Flipbook.Css.Keyframes
import Flipbook.Proofs.Css.Printed
import Flipbook.Proofs.Number.Quotient
import Flipbook.Proofs.Text.Digits

namespace Flipbook.Css

open Text Binary64

namespace OffsetWord

theorem reads_hundred : Reads (bits 100.0) (.finite .positive (100 * 2 ^ 46) (-46) (by decide)) :=
  .finite _ (by decide) (by decide) (.inr (by decide)) (by decide +kernel)

theorem unsigned_hundred : Unsigned 100.0 := by
  unfold Unsigned
  decide +kernel

theorem toFloat_places (digits places : Nat) :
    Decimal.toFloat false ⟨digits, -places⟩ =
      if digits = 0 ∨ 400 + digits.log2 < places then nearest false 0 1
      else nearest false digits (pow10 places) := by
  have tiny : -(places : Int) < -400 - digits.log2 ↔ 400 + digits.log2 < places := by omega
  have whole : (-(places : Int)).toNat = 0 := by omega
  have fraction : (-(-(places : Int))).toNat = places := by omega
  have moderate : ¬400 < -(places : Int) := by omega
  unfold Decimal.toFloat
  simp only [tiny, whole, fraction, if_neg moderate]
  change (if _ then _ else nearest false (digits * 1) _) = _
  rw [Nat.mul_one]

theorem toFloat_le_hundred {digits places : Nat} (most : digits ≤ 100 * pow10 places) :
    Unsigned (Decimal.toFloat false ⟨digits, -places⟩) ∧ Decimal.toFloat false ⟨digits, -places⟩ ≤ 100.0 := by
  have below {num den : Nat} (positive : 0 < den) (ratio : num ≤ 100 * den) :
      Unsigned (nearest false num den) ∧ nearest false num den ≤ 100.0 := by
    refine nearest_le unsigned_hundred reads_hundred positive ?_
    change num * 2 ^ 46 ≤ 100 * 2 ^ 46 * den * 1
    omega
  rw [toFloat_places]
  split
  · exact below (by decide) (by decide)
  · exact below (Nat.pow_pos (by decide)) most

theorem value_mem_unit {offset : OffsetWord} (valid : offset.Valid) :
    Unsigned offset.value ∧ 0.0 ≤ offset.value ∧ offset.value ≤ 1.0 := by
  have bound : Unsigned offset.value ∧ offset.value ≤ 1.0 := by
    cases offset with
    | start => exact ⟨unsigned_zero, by decide +kernel⟩
    | finish => exact ⟨unsigned_one, by decide +kernel⟩
    | percent whole fraction =>
      obtain ⟨unsigned, most⟩ := toFloat_le_hundred valid.2.2
      exact div_le_one unsigned unsigned_hundred most (by decide +kernel)
  refine ⟨bound.1, (le_iff_bits unsigned_zero bound.1).mpr ?_, bound.2⟩
  rw [bits_zero]
  exact Nat.zero_le _

theorem mem_text_fixed {offset : OffsetWord} (valid : offset.Valid) {c : Char} (member : c ∈ offset.text) :
    isBlank c = false ∧ c ≠ ',' ∧ c ≠ 'İ' ∧ c ≠ 'Σ' ∧ lowerChar c = c := by
  rcases mem_text valid member with digit | letter
  · exact ⟨isBlank_of_isDigit digit, ne_of_isDigit digit (by decide), ne_of_isDigit digit (by decide +kernel),
      ne_of_isDigit digit (by decide +kernel), lowerChar_of_isDigit digit⟩
  · simp only [List.mem_cons, List.not_mem_nil, or_false] at letter
    rcases letter with rfl | rfl | rfl | rfl | rfl | rfl | rfl <;> decide

theorem offset?_text {offset : OffsetWord} (valid : offset.Valid) {before after : Text}
    (blankBefore : ∀ c ∈ before, isBlank c) (blankAfter : ∀ c ∈ after, isBlank c) :
    offset? (before ++ offset.text ++ after) = some offset.value := by
  have trimmed : Trimmed offset.text :=
    ⟨fun c first => (mem_text_fixed valid (List.mem_of_mem_head? first)).1,
      fun c last => (mem_text_fixed valid (List.mem_of_getLast? last)).1⟩
  have lower : lowerCase offset.text = offset.text :=
    lowerAfter_of_fixed (fun c member => (mem_text_fixed valid member).2.2) []
  unfold offset?
  simp only [trim_around blankBefore trimmed blankAfter, lower]
  cases offset with
  | start => rfl
  | finish => rfl
  | percent whole fraction =>
    obtain ⟨lexeme, shape, plain⟩ := percent_text valid
    have percent : '%' ∈ (OffsetWord.percent whole fraction).text := by
      rw [shape]
      simp
    have noStart : (OffsetWord.percent whole fraction).text ≠ "from".toList := by
      intro same
      rw [same] at percent
      revert percent
      decide
    have noFinish : (OffsetWord.percent whole fraction).text ≠ "to".toList := by
      intro same
      rw [same] at percent
      revert percent
      decide
    have noDigit : Halts isDigit ['%'] := halts_cons.mpr (by decide)
    have noPoint : Halts (· = '.') ['%'] := halts_cons.mpr (by decide)
    have taken := takePlain?_complete plain noDigit noPoint
    rw [if_neg noStart, if_neg noFinish, shape, taken]
    exact if_pos (value_mem_unit valid).2

end OffsetWord

theorem filterMap_offset? {gap after : Text} (blank : ∀ c ∈ gap, isBlank c) (blankAfter : ∀ c ∈ after, isBlank c)
    {offsets : List OffsetWord} (nonempty : offsets ≠ []) (valid : ∀ offset ∈ offsets, offset.Valid)
    {before : Text} (blankBefore : ∀ c ∈ before, isBlank c) :
    (splitBy (· = ',') (before ++ offsetsText gap offsets ++ after)).filterMap offset? =
      offsets.map OffsetWord.value := by
  induction offsets generalizing before with
  | nil => exact absurd rfl nonempty
  | cons offset others ih =>
    obtain ⟨first, later⟩ := List.forall_mem_cons.mp valid
    have free (t : Text) (blank : ∀ c ∈ t, isBlank c) : ∀ c ∈ before ++ offset.text ++ t, decide (c = ',') = false := by
      intro c member
      refine decide_eq_false ?_
      rcases List.mem_append.mp member with member | member
      · rcases List.mem_append.mp member with member | member
        · exact ne_of_isBlank (blankBefore c member) (by decide)
        · exact (OffsetWord.mem_text_fixed first member).2.1
      · exact ne_of_isBlank (blank c member) (by decide)
    cases others with
    | nil =>
      have alone : offsetsText gap [offset] = offset.text := rfl
      rw [alone, splitBy_of_free (free after blankAfter),
        List.filterMap_cons_some (OffsetWord.offset?_text first blankBefore blankAfter)]
      rfl
    | cons second others =>
      have rest := ih (by simp) later blank
      have shape : before ++ offsetsText gap (offset :: second :: others) ++ after =
          (before ++ offset.text ++ []) ++ ',' :: (gap ++ offsetsText gap (second :: others) ++ after) := by
        simp [offsetsText, joinWith]
      rw [shape, splitBy_cut (free [] (List.forall_mem_nil _)) (by simp),
        List.filterMap_cons_some (OffsetWord.offset?_text first blankBefore (List.forall_mem_nil _)), rest]
      rfl

theorem offsets_offsetsText {gap before after : Text} (blank : ∀ c ∈ gap, isBlank c)
    (blankBefore : ∀ c ∈ before, isBlank c) (blankAfter : ∀ c ∈ after, isBlank c) {words : List OffsetWord}
    (nonempty : words ≠ []) (valid : ∀ offset ∈ words, offset.Valid) :
    offsets (before ++ offsetsText gap words ++ after) = words.map OffsetWord.value :=
  filterMap_offset? blank blankAfter nonempty valid blankBefore

end Flipbook.Css
