import Flipbook.Number.Notation
import Flipbook.Proofs.Css.PlainDecimal
import Flipbook.Proofs.Number.Rounding

namespace Flipbook

open Text Css

inductive PowerText : Text → Prop
  | absent : PowerText []
  | present {sign : Char} {digits : Text} (isSign : sign = '-' ∨ sign = '+') (nonempty : digits ≠ [])
      (inside : ∀ c ∈ digits, isDigit c) : PowerText ('e' :: sign :: digits)

/-- How a number is printed: a minus sign, digits with a point, a power of ten. -/
inductive NumeralText : Text → Prop
  | mk {sign mantissa power : Text} {decimal : Decimal} (isSign : sign = [] ∨ sign = ['-'])
      (plain : PlainText mantissa decimal) (exponent : PowerText power) :
      NumeralText (sign ++ mantissa ++ power)

structure EndsNumeral (rest : Text) : Prop where
  digit : Halts isDigit rest
  point : Halts (· = '.') rest
  power : takeExponent rest = (0, [], rest)

theorem takeExponent_of_ne {c : Char} (small : c ≠ 'e') (capital : c ≠ 'E') (rest : Text) :
    takeExponent (c :: rest) = (0, [], c :: rest) := by
  exact if_neg (not_or.mpr ⟨small, capital⟩)

namespace EndsNumeral

theorem nil : EndsNumeral [] := ⟨halts_nil, halts_nil, rfl⟩

theorem cons {c : Char} (noDigit : isDigit c = false) (noPoint : c ≠ '.') (small : c ≠ 'e') (capital : c ≠ 'E')
    (rest : Text) : EndsNumeral (c :: rest) :=
  ⟨halts_cons.mpr noDigit, halts_cons.mpr (decide_eq_false noPoint), takeExponent_of_ne small capital rest⟩

theorem space (rest : Text) : EndsNumeral (' ' :: rest) :=
  cons (by decide) (by decide) (by decide) (by decide) rest

end EndsNumeral

theorem takeExponent_complete {power rest : Text} (text : PowerText power) (ends : EndsNumeral rest) :
    ∃ value, takeExponent (power ++ rest) = (value, power, rest) := by
  cases text with
  | absent => exact ⟨0, ends.power⟩
  | @present sign digits isSign nonempty inside =>
    obtain ⟨d, digits, rfl⟩ := List.exists_cons_of_ne_nil nonempty
    have taken := takeDigits_run inside ends.digit
    have signed : takeSign (sign :: (d :: digits ++ rest)) = ([sign], d :: digits ++ rest) := by
      rcases isSign with rfl | rfl <;> rfl
    refine ⟨Binary64.signed (isNegative [sign]) (digitsValue (d :: digits)), ?_⟩
    unfold takeExponent
    simp only [List.cons_append, true_or, ↓reduceIte]
    rw [← List.cons_append, signed]
    simp only [taken]
    rfl

theorem PowerText.ends {power rest : Text} (text : PowerText power) (ends : EndsNumeral rest) :
    Halts isDigit (power ++ rest) ∧ Halts (· = '.') (power ++ rest) := by
  cases text with
  | absent => exact ⟨ends.digit, ends.point⟩
  | present => exact ⟨halts_cons.mpr (by decide), halts_cons.mpr (by decide)⟩

namespace NumeralText

variable {lexeme : Text}

theorem read?_complete (text : NumeralText lexeme) {rest : Text} (ends : EndsNumeral rest) :
    ∃ value, Numeral.read? (lexeme ++ rest) = some ⟨value, lexeme, rest⟩ := by
  cases text with
  | @mk sign mantissa power decimal isSign plain exponent =>
    obtain ⟨noDigit, noPoint⟩ := exponent.ends ends
    obtain ⟨whole, fraction, taken, -⟩ := plain.takeMantissa? noDigit noPoint
    obtain ⟨value, scaled⟩ := takeExponent_complete exponent ends
    have signed : takeSign (sign ++ (mantissa ++ (power ++ rest))) = (sign, mantissa ++ (power ++ rest)) := by
      rcases isSign with rfl | rfl
      · exact plain.takeSign_eq _
      · rfl
    refine ⟨⟨isNegative sign, digitsValue (whole ++ fraction), value - fraction.length⟩, ?_⟩
    unfold Numeral.read?
    rw [List.append_assoc, List.append_assoc, signed]
    simp only [taken, scaled]

theorem ne_nil (text : NumeralText lexeme) : lexeme ≠ [] := by
  cases text with
  | mk isSign plain exponent => simp [plain.ne_nil]

theorem char (text : NumeralText lexeme) : ∀ c ∈ lexeme, isDigit c ∨ c ∈ ['.', '-', '+', 'e'] := by
  intro c member
  cases text with
  | @mk sign mantissa power decimal isSign plain exponent =>
    rcases List.mem_append.mp member with member | inPower
    · rcases List.mem_append.mp member with inSign | inMantissa
      · rcases isSign with rfl | rfl
        · cases inSign
        · exact .inr (by simp [List.mem_singleton.mp inSign])
      · exact (plain.char c inMantissa).imp_right fun point => by simp [point]
    · cases exponent with
      | absent => cases inPower
      | present isSign nonempty inside =>
        rcases List.mem_cons.mp inPower with letter | inPower
        · exact .inr (by simp [letter])
        · rcases List.mem_cons.mp inPower with rfl | inDigits
          · exact .inr (by rcases isSign with rfl | rfl <;> decide)
          · exact .inl (inside c inDigits)

theorem class_of_mem (text : NumeralText lexeme) {p : Char → Bool} (digits : ∀ c, isDigit c → p c)
    (marks : ∀ c ∈ ['.', '-', '+', 'e'], p c) : ∀ c ∈ lexeme, p c := by
  intro c member
  rcases text.char c member with digit | mark
  · exact digits c digit
  · exact marks c mark

theorem isBlank_eq_false (text : NumeralText lexeme) : ∀ c ∈ lexeme, isBlank c = false := by
  have marks : (['.', '-', '+', 'e'].any isBlank) = false := by decide +kernel
  intro c member
  rcases text.char c member with digit | mark
  · exact isBlank_of_isDigit digit
  · simpa using List.any_eq_false.mp marks c mark

theorem head (text : NumeralText lexeme) : ∀ c ∈ lexeme.head?, isDigit c ∨ c = '.' ∨ c = '-' := by
  intro c first
  cases text with
  | @mk sign mantissa power decimal isSign plain exponent =>
    rcases isSign with rfl | rfl
    · obtain ⟨d, tail, shape⟩ := List.exists_cons_of_ne_nil plain.ne_nil
      rw [shape] at first
      have same : d = c := by simpa using first
      have inside := plain.char c (by rw [shape, same]; exact List.mem_cons_self)
      exact inside.imp_right .inl
    · have same : '-' = c := by simpa using first
      exact .inr (.inr same.symm)

end NumeralText

theorem char_of_takeSign {t : Text} : ∀ c ∈ (takeSign t).1, c ∈ ['-', '+'] := by
  intro c member
  unfold takeSign at member
  split at member
  · exact List.mem_cons.mpr (.inl (List.mem_singleton.mp member))
  · exact List.mem_cons_of_mem _ member
  · cases member

theorem char_of_takeMantissa? {t whole fraction lexeme rest : Text}
    (taken : takeMantissa? t = some (whole, fraction, lexeme, rest)) : ∀ c ∈ lexeme, isDigit c ∨ c = '.' := by
  have digits {t digits rest : Text} (taken : takeDigits t = (digits, rest)) : ∀ c ∈ digits, isDigit c ∨ c = '.' :=
    fun c member => .inl ((takeDigits_sound taken).2.1 c member)
  have pointed {t whole : Text} (inside : ∀ c ∈ whole, isDigit c ∨ c = '.') :
      ∀ c ∈ whole ++ '.' :: (takeDigits t).1, isDigit c ∨ c = '.' := by
    intro c member
    rcases List.mem_append.mp member with inWhole | inFraction
    · exact inside c inWhole
    · rcases List.mem_cons.mp inFraction with point | inFraction
      · exact .inr point
      · exact digits rfl c inFraction
  unfold takeMantissa? at taken
  split at taken
  · rename_i after first
    split at taken
    · cases taken
    · rename_i second
      cases taken
      have member := @pointed after [] (by simp)
      rwa [second] at member
  · cases taken
  · rename_i first
    cases taken
    exact pointed (digits first)
  · rename_i first
    cases taken
    exact digits first

theorem char_of_takeExponent {t : Text} : ∀ c ∈ (takeExponent t).2.1, isDigit c ∨ c ∈ ['-', '+', 'e', 'E'] := by
  intro c member
  unfold takeExponent at member
  split at member
  · rename_i letter rest
    split at member
    · rename_i isLetter
      split at member
      rename_i sign afterSign signed
      split at member
      · cases member
      · rename_i digits after _ taken
        have inSign := @char_of_takeSign rest
        rw [signed] at inSign
        have inDigits := (takeDigits_sound taken).2.1
        simp only [List.cons_append, List.mem_cons, List.mem_append] at member
        rcases member with same | member | member
        · subst same
          rcases isLetter with rfl | rfl <;> simp
        · exact .inr (List.mem_append_left ['e', 'E'] (inSign c member))
        · exact .inl (inDigits c member)
    · cases member
  · cases member

theorem char_of_read? {t : Text} {reading : Numeral.Reading} (read : Numeral.read? t = some reading) :
    ∀ c ∈ reading.lexeme, isDigit c ∨ c ∈ ['.', '-', '+', 'e', 'E'] := by
  intro c member
  unfold Numeral.read? at read
  simp only at read
  split at read
  · cases read
  · rename_i taken
    cases read
    rcases List.mem_append.mp member with member | inPower
    · rcases List.mem_append.mp member with inSign | inMantissa
      · have sign := char_of_takeSign c inSign
        exact .inr (by grind)
      · exact (char_of_takeMantissa? taken c inMantissa).imp_right fun point => by simp [point]
    · exact (char_of_takeExponent c inPower).imp_right fun mark => by grind

theorem read?_eq_none {c : Char} (noDigit : isDigit c = false) (noPoint : c ≠ '.') (noMinus : c ≠ '-')
    (noPlus : c ≠ '+') (rest : Text) : Numeral.read? (c :: rest) = none := by
  have empty : takeDigits (c :: rest) = ([], c :: rest) := by
    have halts : Halts isDigit (c :: rest) := halts_cons.mpr noDigit
    rw [takeDigits, takeWhile_of_halts halts, dropWhile_of_halts halts]
  have noMantissa : takeMantissa? (c :: rest) = none := by
    unfold takeMantissa?
    rw [empty]
    split
    · rename_i same
      exact absurd (List.cons.inj (Prod.mk.inj same).2).1 noPoint
    · rfl
    · rename_i filled same
      exact (filled (Prod.mk.inj same).1.symm).elim
    · rename_i filled _ same
      exact (filled (Prod.mk.inj same).1.symm).elim
  unfold Numeral.read?
  rw [takeSign_of_unsigned noMinus noPlus]
  simp only [noMantissa]

namespace Binary64

theorem isDigit_of_mem_ofNat {n : Nat} : ∀ c ∈ Text.ofNat n, isDigit c :=
  fun _ member => isDigit_of_ascii (Nat.isDigit_of_mem_toDigits (by decide) (by decide) member)

theorem ofNat_ne_nil (n : Nat) : Text.ofNat n ≠ [] := Nat.toDigits_ne_nil

theorem isDigit_of_mem_zeros {n : Nat} : ∀ c ∈ List.replicate n '0', isDigit c := by
  intro c member
  rw [List.eq_of_mem_replicate member]
  decide

theorem isDigit_of_mem_append {digits others : Text} (inside : ∀ c ∈ digits, isDigit c)
    (inside' : ∀ c ∈ others, isDigit c) : ∀ c ∈ digits ++ others, isDigit c := by
  intro c member
  exact (List.mem_append.mp member).elim (inside c) (inside' c)

theorem exponentText_power (style : Style) (e : Int) : PowerText (style.exponentText e) := by
  refine .present (by split <;> simp) ?_ ?_
  · simp [padLeft, ofNat_ne_nil]
  · exact isDigit_of_mem_append isDigit_of_mem_zeros isDigit_of_mem_ofNat

theorem decimalText_plain (d : Decimal) : ∃ mantissa power decimal,
    Style.plain.decimalText d = mantissa ++ power ∧ PlainText mantissa decimal ∧ PowerText power := by
  have inside := @isDigit_of_mem_ofNat d.digits
  unfold Style.decimalText
  simp only
  generalize shown : Text.ofNat d.digits = digits at inside
  have nonempty : digits ≠ [] := shown ▸ ofNat_ne_nil d.digits
  split
  · obtain ⟨c, rest, rfl⟩ := List.exists_cons_of_ne_nil nonempty
    have power := exponentText_power Style.plain (d.exponent + (c :: rest).length - 1)
    cases rest with
    | nil => exact ⟨[c], _, _, rfl, .whole (by simp) inside, power⟩
    | cons c' rest =>
      refine ⟨[c] ++ '.' :: (c' :: rest), _, _, by simp, .pointed ?_ (by simp) ?_, power⟩
      · exact fun e member => inside e (by simp [List.mem_singleton.mp member])
      · exact fun e member => inside e (List.mem_cons_of_mem _ member)
  · split
    · refine ⟨digits ++ List.replicate d.exponent.toNat '0' ++ '.' :: ['0'], [], _, by simp [Style.plain],
        .pointed (isDigit_of_mem_append inside isDigit_of_mem_zeros) (by simp) ?_, .absent⟩
      exact List.forall_mem_singleton.mpr (by decide)
    · split
      · refine ⟨['0'] ++ '.' :: (List.replicate (-(d.exponent + digits.length - 1) - 1).toNat '0' ++ digits), [], _,
          by simp, .pointed ?_ (by simp [nonempty]) (isDigit_of_mem_append isDigit_of_mem_zeros inside), .absent⟩
        exact List.forall_mem_singleton.mpr (by decide)
      · rename_i fractional positive
        refine ⟨_, [], _, (List.append_nil _).symm, .pointed ?_ ?_ ?_, .absent⟩
        · exact fun c member => inside c (List.mem_of_mem_take member)
        · rw [Ne, List.drop_eq_nil_iff]
          omega
        · exact fun c member => inside c (List.mem_of_mem_drop member)

theorem ofInt_numeral (n : Int) : NumeralText (Text.ofInt n) := by
  have digits (n : Nat) : PlainText (Text.ofNat n) _ := .whole (ofNat_ne_nil n) isDigit_of_mem_ofNat
  cases n with
  | ofNat n =>
    have text := NumeralText.mk (.inl rfl) (digits n) .absent
    rwa [List.nil_append, List.append_nil] at text
  | negSucc n =>
    have text := NumeralText.mk (.inr rfl) (digits (n + 1)) .absent
    rwa [List.append_nil] at text

theorem plainText_numeral {x : Float} (finite : isFinite x) : NumeralText (plainText x) := by
  obtain ⟨negative, mantissa, exponent, shape, -⟩ := parts_of_isFinite finite
  have sign : (if negative then ['-'] else ([] : Text)) = [] ∨ (if negative then ['-'] else ([] : Text)) = ['-'] := by
    cases negative <;> simp
  unfold plainText Style.text
  rw [shape]
  cases mantissa with
  | zero =>
    have zero : PlainText (['0'] ++ '.' :: ['0']) _ :=
      .pointed (List.forall_mem_singleton.mpr (by decide)) (by simp) (List.forall_mem_singleton.mpr (by decide))
    have text := NumeralText.mk sign zero .absent
    rwa [List.append_nil] at text
  | succ mantissa =>
    obtain ⟨digits, power, decimal, printed, plain, scaled⟩ := decimalText_plain (shortest (mantissa + 1) exponent)
    have text := NumeralText.mk sign plain scaled
    rwa [List.append_assoc, ← printed] at text

theorem sheetText_numeral {x : Float} (finite : isFinite x) : NumeralText (sheetText x) := by
  unfold sheetText
  split
  · exact ofInt_numeral _
  · exact plainText_numeral finite

end Binary64
end Flipbook
