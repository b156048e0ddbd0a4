import Flipbook.Proofs.Number.NumeralText
import Flipbook.Proofs.Number.QuotientFloor

namespace Flipbook

open Text Css Binary64

namespace Text

theorem digitsValue_append_digit (t : Text) (c : Char) :
    digitsValue (t ++ [c]) = 10 * digitsValue t + (digit? c).getD 0 := by
  unfold digitsValue
  rw [List.foldl_append]
  rfl

theorem digit?_digitChar {d : Nat} (less : d < 10) : digit? d.digitChar = some d := by
  have all : ∀ d < 10, digit? d.digitChar = some d := by decide +kernel
  exact all d less

theorem digitsValue_ofNat (n : Nat) : digitsValue (ofNat n) = n := by
  induction n using Nat.strongRecOn with
  | ind n ih =>
    unfold ofNat
    rw [Nat.toDigits_eq_if (by decide)]
    split
    · rename_i less
      show 10 * 0 + (digit? n.digitChar).getD 0 = n
      rw [digit?_digitChar less]
      exact Nat.zero_add n
    · rename_i more
      have front := ih (n / 10) (by omega)
      unfold ofNat at front
      rw [digitsValue_append_digit, front, digit?_digitChar (Nat.mod_lt n (by decide))]
      exact Nat.div_add_mod n 10

theorem digitsValue_zeros (zeros : Nat) (t : Text) : digitsValue (List.replicate zeros '0' ++ t) = digitsValue t := by
  induction zeros with
  | zero => rfl
  | succ zeros ih => exact ih

end Text

/-- How an integer is written: a sign or none, and the digits after any number of zeros. -/
inductive IntegerText : Int → Text → Prop
  | mk {sign : Text} (isSign : sign = [] ∨ sign = ['+'] ∨ sign = ['-']) (zeros size : Nat) :
      IntegerText (signed (isNegative sign) size) (sign ++ (List.replicate zeros '0' ++ ofNat size))

theorem digits_plain (zeros size : Nat) : PlainText (List.replicate zeros '0' ++ ofNat size) ⟨size, 0⟩ := by
  have value : digitsValue (List.replicate zeros '0' ++ ofNat size) = size := by
    rw [digitsValue_zeros, digitsValue_ofNat]
  have plain : PlainText (List.replicate zeros '0' ++ ofNat size) _ := .whole (by simp [ofNat_ne_nil])
    (isDigit_of_mem_append isDigit_of_mem_zeros isDigit_of_mem_ofNat)
  rwa [value] at plain

namespace IntegerText

variable {n : Int} {lexeme : Text}

theorem read? (written : IntegerText n lexeme) {rest : Text} (ends : EndsNumeral rest) :
    ∃ negative size, Numeral.read? (lexeme ++ rest) = some ⟨⟨negative, size, 0⟩, lexeme, rest⟩ ∧
      signed negative size = n := by
  cases written with
  | @mk sign isSign zeros size =>
    have plain := digits_plain zeros size
    generalize List.replicate zeros '0' ++ ofNat size = digits at plain
    obtain ⟨whole, fraction, taken, same⟩ := plain.takeMantissa? ends.digit ends.point
    have cut : takeSign (sign ++ (digits ++ rest)) = (sign, digits ++ rest) := by
      rcases isSign with rfl | rfl | rfl
      · exact plain.takeSign_eq _
      · rfl
      · rfl
    obtain ⟨value, point⟩ := Decimal.mk.inj same
    refine ⟨isNegative sign, size, ?_, rfl⟩
    unfold Numeral.read?
    rw [List.append_assoc, cut]
    simp only [taken, ends.power, List.append_nil, ← value, zero_sub, ← point]

theorem unique {m : Int} (written : IntegerText n lexeme) (written' : IntegerText m lexeme) : n = m := by
  obtain ⟨negative, size, read, rfl⟩ := written.read? EndsNumeral.nil
  obtain ⟨negative', size', read', rfl⟩ := written'.read? EndsNumeral.nil
  rw [read] at read'
  cases read'
  rfl

theorem char (written : IntegerText n lexeme) : ∀ c ∈ lexeme, isDigit c ∨ c ∈ ['+', '-'] := by
  intro c member
  cases written with
  | mk isSign zeros size =>
    rcases List.mem_append.mp member with inSign | inDigits
    · rcases isSign with rfl | rfl | rfl
      · cases inSign
      · exact .inr (by simpa using .inl (List.mem_singleton.mp inSign))
      · exact .inr (by simpa using .inr (List.mem_singleton.mp inSign))
    · exact .inl (isDigit_of_mem_append isDigit_of_mem_zeros isDigit_of_mem_ofNat c inDigits)

theorem ne_nil (written : IntegerText n lexeme) : lexeme ≠ [] := by
  cases written with
  | mk isSign zeros size => simp [ofNat_ne_nil]

end IntegerText

theorem integerText_ofInt (n : Int) : IntegerText n (Text.ofInt n) := by
  cases n with
  | ofNat size => exact .mk (.inl rfl) 0 size
  | negSucc size => exact .mk (.inr (.inr rfl)) 0 (size + 1)

namespace Binary64

theorem toFloat_integer (negative : Bool) (size : Nat) :
    Numeral.toFloat ⟨negative, size, 0⟩ = nearest negative size 1 := by
  unfold Numeral.toFloat Decimal.toFloat
  rcases Nat.eq_zero_or_pos size with rfl | positive
  · rfl
  · have fits : ¬(size = 0 ∨ (0 : Int) < -400 - size.log2) := by omega
    have small : ¬(400 : Int) < 0 := by decide
    simp only [if_neg fits, if_neg small]
    rw [Int.toNat_zero, Int.neg_zero, Int.toNat_zero, show pow10 0 = 1 from rfl, Nat.mul_one]

theorem sheetText_of_integer {size : Nat} (short : size ≤ 2 ^ 53) (negative : Bool) :
    sheetText (Numeral.toFloat ⟨negative, size, 0⟩) = Text.ofInt (signed negative size) := by
  have double : rounding size = size := rounding_of_isDouble (isDouble_of_le short)
  have within : rounding (size / (1 : Nat)) < 2 ^ 1024 := by
    have limit : (size : ℚ) ≤ 2 ^ 53 := by exact_mod_cast short
    rw [Nat.cast_one, div_one, double]
    exact limit.trans_lt (pow_lt_pow_right₀ one_lt_two (by decide))
  obtain ⟨finite, same⟩ := value_nearest size Nat.one_pos within negative
  have whole : whole? (nearest negative size 1) = some (signed negative size) := by
    apply whole?_eq_some finite
    rw [same, Nat.cast_one, div_one, double]
    cases negative <;> simp [signed]
  unfold sheetText
  rw [toFloat_integer, whole]

end Binary64
end Flipbook
