import Flipbook.Css.Time
import Flipbook.Number.Freeform
import Flipbook.Proofs.Text.Pieces

namespace Flipbook.Css

open Text

theorem isBlank_of_isDigit {c : Char} (digit : isDigit c) : isBlank c = false :=
  isBlank_eq_false_of (by decide +kernel) digit

theorem ne_of_isDigit {c other : Char} (digit : isDigit c) (noDigit : isDigit other = false) : c ≠ other := by
  rintro rfl
  rw [digit] at noDigit
  cases noDigit

inductive PlainText : Text → Decimal → Prop
  | whole {digits : Text} (nonempty : digits ≠ []) (inside : ∀ c ∈ digits, isDigit c) :
      PlainText digits ⟨digitsValue digits, 0⟩
  | pointed {whole fraction : Text} (wholeInside : ∀ c ∈ whole, isDigit c) (nonempty : fraction ≠ [])
      (inside : ∀ c ∈ fraction, isDigit c) :
      PlainText (whole ++ '.' :: fraction) ⟨digitsValue (whole ++ fraction), -fraction.length⟩

theorem takeDigits_run {digits rest : Text} (inside : ∀ c ∈ digits, isDigit c) (halts : Halts isDigit rest) :
    takeDigits (digits ++ rest) = (digits, rest) := by
  rw [takeDigits, takeWhile_run inside halts, dropWhile_run inside halts]

theorem takeDigits_sound {t digits rest : Text} (taken : takeDigits t = (digits, rest)) :
    t = digits ++ rest ∧ (∀ c ∈ digits, isDigit c) ∧ Halts isDigit rest := by
  cases taken
  exact ⟨List.takeWhile_append_dropWhile.symm, fun c => List.mem_takeWhile_imp, halts_dropWhile t⟩

theorem takePlain?_complete {lexeme : Text} {decimal : Decimal} (text : PlainText lexeme decimal)
    {rest : Text} (halts : Halts isDigit rest) (noPoint : Halts (· = '.') rest) :
    takePlain? (lexeme ++ rest) = some (decimal, rest) := by
  cases text with
  | whole nonempty inside =>
    obtain ⟨d, digits, rfl⟩ := List.exists_cons_of_ne_nil nonempty
    unfold takePlain?
    rw [takeDigits_run inside halts]
    split
    · rename_i same
      cases same
      have pointed := noPoint '.' rfl
      simp at pointed
    · rename_i same
      cases same
    · rename_i same
      cases same
      rfl
  | @pointed whole fraction wholeInside nonempty inside =>
    obtain ⟨d, digits, rfl⟩ := List.exists_cons_of_ne_nil nonempty
    have point : Halts isDigit ('.' :: ((d :: digits) ++ rest)) := halts_cons.mpr (by decide)
    unfold takePlain?
    rw [List.append_assoc, List.cons_append, takeDigits_run wholeInside point]
    simp only [takeDigits_run inside halts]

theorem takePlain?_sound {t rest : Text} {decimal : Decimal} (taken : takePlain? t = some (decimal, rest)) :
    ∃ lexeme, t = lexeme ++ rest ∧ PlainText lexeme decimal := by
  unfold takePlain? at taken
  split at taken
  · rename_i whole after first
    obtain ⟨cut, wholeInside, _⟩ := takeDigits_sound first
    split at taken
    · cases taken
    · rename_i nonempty second
      obtain ⟨cut', inside, _⟩ := takeDigits_sound second
      cases taken
      refine ⟨_, ?_, .pointed wholeInside nonempty inside⟩
      rw [cut, cut', List.append_assoc, List.cons_append]
  · cases taken
  · rename_i nonempty first
    obtain ⟨cut, inside, _⟩ := takeDigits_sound first
    cases taken
    exact ⟨_, cut, .whole nonempty inside⟩

theorem joinGroups?_eq_some {t : Text} (noGroups : '_' ∉ t) (before : Bool) : joinGroups? before t = some t := by
  induction t generalizing before with
  | nil => rfl
  | cons c rest ih =>
    rw [List.mem_cons, not_or] at noGroups
    have others := ih noGroups.2
    unfold joinGroups?
    split
    · rename_i same
      cases same
    · rename_i same
      exact absurd (List.cons.inj same).1.symm noGroups.1
    · rename_i same
      exact absurd (List.cons.inj same).1.symm noGroups.1
    · rename_i same
      cases same
      rw [others]
      rfl

theorem takeSign_of_unsigned {c : Char} {rest : Text} (noMinus : c ≠ '-') (noPlus : c ≠ '+') :
    takeSign (c :: rest) = ([], c :: rest) := by
  unfold takeSign
  split
  · rename_i same
    exact absurd (List.cons.inj same).1 noMinus
  · rename_i same
    exact absurd (List.cons.inj same).1 noPlus
  · rfl

namespace PlainText

variable {lexeme : Text} {decimal : Decimal}

theorem ne_nil (text : PlainText lexeme decimal) : lexeme ≠ [] := by
  cases text with
  | whole nonempty => exact nonempty
  | pointed => simp

theorem char (text : PlainText lexeme decimal) : ∀ c ∈ lexeme, isDigit c ∨ c = '.' := by
  intro c member
  cases text with
  | whole nonempty inside => exact .inl (inside c member)
  | pointed wholeInside nonempty inside =>
    rcases List.mem_append.mp member with member | member
    · exact .inl (wholeInside c member)
    · rcases List.mem_cons.mp member with point | member
      · exact .inr point
      · exact .inl (inside c member)

theorem ne_of_mem (text : PlainText lexeme decimal) {other : Char} (noDigit : isDigit other = false)
    (noPoint : other ≠ '.') : other ∉ lexeme := by
  intro member
  rcases text.char other member with digit | point
  · exact ne_of_isDigit digit noDigit rfl
  · exact noPoint point

theorem isBlank_eq_false (text : PlainText lexeme decimal) : ∀ c ∈ lexeme, isBlank c = false := by
  intro c member
  rcases text.char c member with digit | rfl
  · exact isBlank_of_isDigit digit
  · decide

theorem trimmed (text : PlainText lexeme decimal) : Trimmed lexeme :=
  ⟨fun c first => text.isBlank_eq_false c (List.mem_of_mem_head? first),
    fun c last => text.isBlank_eq_false c (List.mem_of_getLast? last)⟩

theorem takeSign_eq (text : PlainText lexeme decimal) (rest : Text) :
    takeSign (lexeme ++ rest) = ([], lexeme ++ rest) := by
  obtain ⟨c, tail, shape⟩ := List.exists_cons_of_ne_nil text.ne_nil
  have member : c ∈ lexeme := by rw [shape]; exact List.mem_cons_self
  rw [shape]
  refine takeSign_of_unsigned ?_ ?_
  · rintro rfl
    exact text.ne_of_mem (by decide) (by decide) member
  · rintro rfl
    exact text.ne_of_mem (by decide) (by decide) member

theorem takeMantissa? (text : PlainText lexeme decimal) {rest : Text} (halts : Halts isDigit rest)
    (noPoint : Halts (· = '.') rest) :
    ∃ whole fraction, takeMantissa? (lexeme ++ rest) = some (whole, fraction, lexeme, rest) ∧
      decimal = ⟨digitsValue (whole ++ fraction), -fraction.length⟩ := by
  cases text with
  | whole nonempty inside =>
    obtain ⟨d, digits, rfl⟩ := List.exists_cons_of_ne_nil nonempty
    refine ⟨d :: digits, [], ?_, by simp⟩
    unfold Text.takeMantissa?
    rw [takeDigits_run inside halts]
    split
    · rename_i same
      cases same
    · rename_i same
      cases same
    · rename_i same
      cases same
      have pointed := noPoint '.' rfl
      simp at pointed
    · rename_i same
      cases same
      rfl
  | @pointed whole fraction wholeInside nonempty inside =>
    obtain ⟨d, digits, rfl⟩ := List.exists_cons_of_ne_nil nonempty
    have point : Halts isDigit ('.' :: ((d :: digits) ++ rest)) := halts_cons.mpr (by decide)
    refine ⟨whole, d :: digits, ?_, rfl⟩
    unfold Text.takeMantissa?
    rw [List.append_assoc, List.cons_append, takeDigits_run wholeInside point]
    cases whole with
    | nil => simp only [takeDigits_run inside halts]; rfl
    | cons c whole => simp only [takeDigits_run inside halts]

theorem ofText? (text : PlainText lexeme decimal) : Numeral.ofText? lexeme = some ⟨false, decimal⟩ := by
  obtain ⟨whole, fraction, mantissa, value⟩ := text.takeMantissa? halts_nil halts_nil
  have unsigned := text.takeSign_eq []
  rw [List.append_nil] at mantissa unsigned
  unfold Numeral.ofText? Numeral.read?
  simp only [unsigned, mantissa, takeExponent, isNegative, value]
  simp

theorem toFloat? (text : PlainText lexeme decimal) : toFloat? lexeme = some (decimal.toFloat false) := by
  unfold Text.toFloat?
  rw [text.trimmed.trim_eq, joinGroups?_eq_some (text.ne_of_mem (by decide) (by decide))]
  simp only [Option.bind_eq_bind, Option.bind_some, text.ofText?]
  rfl

end PlainText

theorem toFloat?_of_takePlain? {t rest : Text} {decimal : Decimal}
    (taken : takePlain? t = some (decimal, rest)) :
    ∃ lexeme, t = lexeme ++ rest ∧ toFloat? lexeme = some (decimal.toFloat false) := by
  obtain ⟨lexeme, cut, text⟩ := takePlain?_sound taken
  exact ⟨lexeme, cut, text.toFloat?⟩

end Flipbook.Css
