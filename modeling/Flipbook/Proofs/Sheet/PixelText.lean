import Flipbook.Sheet.Aspect
import Flipbook.Proofs.Css.PlainDecimal
import Flipbook.Proofs.Number.RangeEnds
import Flipbook.Proofs.Text.Digits
import Flipbook.Proofs.Text.Joined

namespace Flipbook.Sheet

open Text Css Binary64

def IsDecimal (number : Text) : Prop := (∃ c ∈ number, isDigit c) ∧ number.count '.' ≤ 1

theorem asciiLower_of_isDigit {c : Char} (digit : isDigit c) : asciiLower c = c := by
  rcases isDigit_cases digit with ascii | ⟨wide, -⟩
  · exact of_decide_eq_true (of_ascii (p := fun c => asciiLower c = c) (by decide) ascii)
  · have beyond : ¬c ≤ 'Z' := fun bound =>
      absurd (Nat.lt_of_le_of_lt (UInt32.le_iff_toNat_le.mp bound) (by decide)) (Nat.not_lt.mpr wide)
    rw [asciiLower, if_neg (by simp [beyond])]

theorem count_point_of_digits {digits : Text} (inside : ∀ c ∈ digits, isDigit c) : digits.count '.' = 0 :=
  List.count_eq_zero_of_not_mem fun member => absurd (inside '.' member) (by decide)

theorem takeMantissa?_whole {whole : Text} (nonempty : whole ≠ []) (inside : ∀ c ∈ whole, isDigit c) :
    takeMantissa? whole = some (whole, [], whole, []) := by
  obtain ⟨d, digits, rfl⟩ := List.exists_cons_of_ne_nil nonempty
  have taken := takeDigits_run inside halts_nil
  rw [List.append_nil] at taken
  unfold takeMantissa?
  rw [taken]

theorem takeMantissa?_pointed {whole fraction rest : Text} (wholeInside : ∀ c ∈ whole, isDigit c)
    (inside : ∀ c ∈ fraction, isDigit c) (halts : Halts isDigit rest) :
    takeMantissa? (whole ++ '.' :: (fraction ++ rest)) =
      if whole = [] ∧ fraction = [] then none else some (whole, fraction, whole ++ '.' :: fraction, rest) := by
  have point : Halts isDigit ('.' :: (fraction ++ rest)) := halts_cons.mpr (by decide)
  unfold takeMantissa?
  rw [takeDigits_run wholeInside point]
  cases whole with
  | nil =>
    simp only [takeDigits_run inside halts]
    cases fraction <;> rfl
  | cons d digits =>
    simp only [takeDigits_run inside halts]
    rfl

theorem digits_or_point {t : Text} (char : ∀ c ∈ t, isDigit c ∨ c = '.') :
    (∀ c ∈ t, isDigit c) ∨ ∃ digits rest, t = digits ++ '.' :: rest ∧ (∀ c ∈ digits, isDigit c) ∧
      ∀ c ∈ rest, isDigit c ∨ c = '.' := by
  by_cases point : '.' ∈ t
  · obtain ⟨digits, rest, rfl, first⟩ := List.eq_append_cons_of_mem point
    refine .inr ⟨digits, rest, rfl, fun c member => ?_, fun c member => ?_⟩
    · refine (char c (List.mem_append_left _ member)).resolve_right fun same => ?_
      rw [same] at member
      exact first member
    · exact char c (List.mem_append_right _ (List.mem_cons_of_mem _ member))
  · refine .inl fun c member => (char c member).resolve_right fun same => ?_
    rw [same] at member
    exact point member

section Numerals

variable {number : Text} (char : ∀ c ∈ number, isDigit c ∨ c = '.')

include char

theorem not_mem_numeral {other : Char} (noDigit : isDigit other = false) (noPoint : other ≠ '.') : other ∉ number := by
  intro member
  rcases char other member with digit | point
  · exact ne_of_isDigit digit noDigit rfl
  · exact noPoint point

theorem takeSign_numeral : takeSign number = ([], number) := by
  cases number with
  | nil => rfl
  | cons c rest =>
    have minus : '-' ∉ c :: rest := not_mem_numeral char (by decide) (by decide)
    have plus : '+' ∉ c :: rest := not_mem_numeral char (by decide) (by decide)
    rw [List.mem_cons, not_or] at minus plus
    exact takeSign_of_unsigned (Ne.symm minus.1) (Ne.symm plus.1)

theorem ofText?_numeral : Numeral.ofText? number =
    match takeMantissa? number with
    | some (whole, fraction, _, []) => some ⟨false, digitsValue (whole ++ fraction), -fraction.length⟩
    | _ => none := by
  unfold Numeral.ofText? Numeral.read?
  simp only [takeSign_numeral char]
  cases taken : takeMantissa? number with
  | none => rfl
  | some mantissa =>
    obtain ⟨whole, fraction, lexeme, rest⟩ := mantissa
    have cut := takeMantissa?_append taken
    have exponent : takeExponent rest = (0, [], rest) := by
      cases rest with
      | nil => rfl
      | cons c more =>
        have member : c ∈ number := by
          rw [← cut]
          exact List.mem_append_right _ List.mem_cons_self
        have small : c ≠ 'e' := by
          rintro rfl
          exact not_mem_numeral char (by decide) (by decide) member
        have great : c ≠ 'E' := by
          rintro rfl
          exact not_mem_numeral char (by decide) (by decide) member
        rw [takeExponent, if_neg (by simp [small, great])]
    simp only [exponent]
    cases rest with
    | nil => simp [Text.isNegative]
    | cons => rfl

theorem ofText?_decimal : (∃ size, Numeral.ofText? number = some ⟨false, size⟩) ∧ IsDecimal number ∨
    Numeral.ofText? number = none ∧ ¬IsDecimal number := by
  rw [ofText?_numeral char]
  rcases digits_or_point char with inside | ⟨whole, after, rfl, wholeInside, char'⟩
  · have count := count_point_of_digits inside
    cases number with
    | nil => exact .inr ⟨rfl, fun decimal => by simp [IsDecimal] at decimal⟩
    | cons d digits =>
      rw [takeMantissa?_whole (List.cons_ne_nil _ _) inside]
      exact .inl ⟨⟨_, rfl⟩, ⟨d, List.mem_cons_self, inside d List.mem_cons_self⟩, by omega⟩
  rcases digits_or_point char' with inside | ⟨fraction, more, rfl, inside, -⟩
  · have mantissa := takeMantissa?_pointed wholeInside inside halts_nil
    rw [List.append_nil] at mantissa
    rw [mantissa]
    by_cases none : whole = [] ∧ after = []
    · obtain ⟨rfl, rfl⟩ := none
      refine .inr ⟨rfl, fun decimal => ?_⟩
      obtain ⟨c, member, digit⟩ := decimal.1
      rw [List.mem_singleton.mp member] at digit
      exact absurd digit (by decide)
    · rw [if_neg none]
      refine .inl ⟨⟨_, rfl⟩, ?_, ?_⟩
      · obtain ⟨c, member, digit⟩ : ∃ c ∈ whole ++ after, isDigit c := by
          obtain ⟨c, rest, same⟩ := List.exists_cons_of_ne_nil fun empty => none (List.append_eq_nil_iff.mp empty)
          have member : c ∈ whole ++ after := by rw [same]; exact List.mem_cons_self
          exact ⟨c, member, (List.mem_append.mp member).elim (wholeInside c) (inside c)⟩
        refine ⟨c, ?_, digit⟩
        exact List.mem_append.mpr ((List.mem_append.mp member).imp_right (List.mem_cons_of_mem _))
      · rw [List.count_append, List.count_cons_self, count_point_of_digits wholeInside, count_point_of_digits inside]
  · rw [takeMantissa?_pointed wholeInside inside (halts_cons.mpr (by decide))]
    refine .inr ⟨?_, fun decimal => ?_⟩
    · split_ifs <;> rfl
    · have points := decimal.2
      rw [List.count_append, List.count_cons_self, List.count_append, List.count_cons_self] at points
      omega

theorem toFloat?_numeral : (∃ size : Decimal, toFloat? number = some (size.toFloat false)) ∧ IsDecimal number ∨
    toFloat? number = none ∧ ¬IsDecimal number := by
  have solid : ∀ c ∈ number, isBlank c = false := by
    intro c member
    rcases char c member with digit | rfl
    · exact isBlank_of_isDigit digit
    · decide
  have groups : joinGroups? false (trim number) = some number := by
    rw [(trimmed_of_solid solid).trim_eq]
    exact joinGroups?_eq_some (not_mem_numeral char (by decide) (by decide)) false
  unfold Text.toFloat?
  rw [groups]
  rcases ofText?_decimal char with ⟨⟨size, read⟩, decimal⟩ | ⟨unread, noDecimal⟩
  · refine .inl ⟨⟨size, ?_⟩, decimal⟩
    simp only [Option.bind_eq_bind, Option.bind_some, read]
    rfl
  · refine .inr ⟨?_, noDecimal⟩
    have lower : number.map asciiLower = number := by
      refine (List.map_congr_left fun c member => ?_).trans (List.map_id number)
      rcases char c member with digit | rfl
      · exact asciiLower_of_isDigit digit
      · decide
    have wordless (word : Text) (letter : 'n' ∈ word) : number ≠ word := by
      rintro rfl
      exact not_mem_numeral char (by decide) (by decide) letter
    simp only [Option.bind_eq_bind, Option.bind_some, unread, takeSign_numeral char, lower]
    rw [if_neg, if_neg (wordless "nan".toList (by decide))]
    rw [Bool.or_eq_true, decide_eq_true_iff, decide_eq_true_iff]
    rintro (same | same)
    · exact wordless "inf".toList (by decide) same
    · exact wordless "infinity".toList (by decide) same

end Numerals

theorem toFloat_pos {size : Decimal} (nonzero : (size.toFloat false == 0.0) = false) : 0.0 < size.toFloat false := by
  unfold Decimal.toFloat at nonzero ⊢
  split at nonzero
  · rename_i none
    rw [if_pos none]
    exact nearest_pos one_pos nonzero
  · rename_i some
    rw [if_neg some]
    split at nonzero
    · rename_i great
      rw [if_pos great]
      exact nearest_pos one_pos nonzero
    · rename_i small
      rw [if_neg small]
      exact nearest_pos (Nat.pow_pos (by decide)) nonzero

def isPart (c : Char) : Bool := isDigit c || c = '.'

theorem isPart_iff {c : Char} : isPart c ↔ isDigit c ∨ c = '.' := by simp [isPart]

theorem isPart_of_isBlank {c : Char} (blank : isBlank c) : isPart c = false :=
  not_of_isBlank (by decide +kernel) blank

structure InPixels (t number : Text) : Prop where
  nonempty : number ≠ []
  char : ∀ c ∈ number, isDigit c ∨ c = '.'
  unit : ∃ gap unit, trim t = number ++ (gap ++ unit) ∧ (∀ c ∈ gap, isBlank c) ∧ (unit = [] ∨ unit = "px".toList)

section Lengths

variable {t number : Text}

def unitOf (t : Text) : Text := trimStart ((trim t).dropWhile isPart)

theorem pixels_eq_ite (t : Text) :
    pixels t = if (trim t).takeWhile isPart ≠ [] ∧ (unitOf t = [] ∨ unitOf t = "px".toList) then
        match toFloat? ((trim t).takeWhile isPart) with
        | some x => .ok (some x)
        | none => .error .malformedLength
      else .ok none := by
  have refused : ((trim t).takeWhile isPart).isEmpty || !((unitOf t).isEmpty || unitOf t = "px".toList) ↔
      ¬((trim t).takeWhile isPart ≠ [] ∧ (unitOf t = [] ∨ unitOf t = "px".toList)) := by
    rw [Bool.or_eq_true, Bool.not_eq_true', Bool.or_eq_false_iff, decide_eq_false_iff_not, List.isEmpty_iff,
      not_and_or, not_not, not_or, List.isEmpty_eq_false_iff]
  by_cases accepted : (trim t).takeWhile isPart ≠ [] ∧ (unitOf t = [] ∨ unitOf t = "px".toList)
  · rw [if_pos accepted]
    exact if_neg fun none => refused.mp none accepted
  · rw [if_neg accepted]
    exact if_pos (refused.mpr accepted)

theorem InPixels.cut (inPixels : InPixels t number) : (trim t).takeWhile isPart = number ∧
    (unitOf t = [] ∨ unitOf t = "px".toList) := by
  obtain ⟨nonempty, char, gap, unit, cut, blank, shape⟩ := inPixels
  have inside : ∀ c ∈ number, isPart c := fun c member => isPart_iff.mpr (char c member)
  have solid : Halts isBlank unit := by
    rcases shape with rfl | rfl
    · exact halts_nil
    · exact halts_cons.mpr (by decide)
  have halts : Halts isPart (gap ++ unit) := by
    cases gap with
    | nil =>
      rcases shape with rfl | rfl
      · exact halts_nil
      · exact halts_cons.mpr (by decide)
    | cons c rest => exact halts_cons.mpr (isPart_of_isBlank (blank c List.mem_cons_self))
  rw [unitOf, cut, takeWhile_run inside halts, dropWhile_run inside halts, trimStart, dropWhile_run blank solid]
  exact ⟨rfl, shape⟩

theorem InPixels.pixels_eq (inPixels : InPixels t number) :
    pixels t = match toFloat? number with
      | some x => .ok (some x)
      | none => .error .malformedLength := by
  obtain ⟨first, unit⟩ := inPixels.cut
  rw [pixels_eq_ite, first, if_pos ⟨inPixels.nonempty, unit⟩]

theorem exists_inPixels (read : pixels t ≠ .ok none) : ∃ number, InPixels t number := by
  rw [pixels_eq_ite] at read
  obtain ⟨nonempty, unit⟩ := (ite_ne_right_iff.mp read).1
  refine ⟨_, nonempty, fun c member => isPart_iff.mp (List.mem_takeWhile_imp member), ?_⟩
  refine ⟨((trim t).dropWhile isPart).takeWhile isBlank, unitOf t, ?_, fun c => List.mem_takeWhile_imp, unit⟩
  rw [unitOf, trimStart, List.takeWhile_append_dropWhile, List.takeWhile_append_dropWhile]

theorem pixels_eq_some_iff {x : Float} : pixels t = .ok (some x) ↔ ∃ number, InPixels t number ∧ toFloat? number = some x := by
  constructor
  · intro read
    obtain ⟨number, inPixels⟩ := exists_inPixels (by rw [read]; simp)
    refine ⟨number, inPixels, ?_⟩
    rw [inPixels.pixels_eq] at read
    split at read
    · rename_i number
      cases read
      exact number
    · cases read
  · rintro ⟨number, inPixels, value⟩
    rw [inPixels.pixels_eq, value]

theorem pixels_eq_error_iff : pixels t = .error .malformedLength ↔ ∃ number, InPixels t number ∧ ¬IsDecimal number := by
  constructor
  · intro read
    obtain ⟨number, inPixels⟩ := exists_inPixels (by rw [read]; simp)
    refine ⟨number, inPixels, ?_⟩
    rcases toFloat?_numeral inPixels.char with ⟨⟨size, value⟩, -⟩ | ⟨-, noDecimal⟩
    · rw [inPixels.pixels_eq, value] at read
      cases read
    · exact noDecimal
  · rintro ⟨number, inPixels, noDecimal⟩
    have unread := ((toFloat?_numeral inPixels.char).resolve_left fun both => noDecimal both.2).1
    rw [inPixels.pixels_eq, unread]

end Lengths

end Flipbook.Sheet
