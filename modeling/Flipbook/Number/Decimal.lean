import Flipbook.Number.Binary64
import Flipbook.Text.Digit

namespace Flipbook

structure Decimal where
  digits : Nat
  exponent : Int
  deriving DecidableEq, Repr

def Decimal.strip (d : Decimal) : Nat → Decimal
  | 0 => d
  | fuel + 1 =>
    if d.digits % 10 = 0 ∧ d.digits ≠ 0 then strip ⟨d.digits / 10, d.exponent + 1⟩ fuel else d

/-- The double nearest to `± d`. Powers of ten that no digits can outweigh are not computed. -/
def Decimal.toFloat (negative : Bool) (d : Decimal) : Float :=
  if d.digits = 0 ∨ d.exponent < -400 - d.digits.log2 then Binary64.nearest negative 0 1
  else if 400 < d.exponent then Binary64.infinity negative
  else Binary64.nearest negative (d.digits * pow10 d.exponent.toNat) (pow10 (-d.exponent).toNat)

def Decimal.toRat (d : Decimal) : Rat := (d.digits : Rat) * (10 : Rat) ^ d.exponent

structure Numeral where
  negative : Bool
  size : Decimal
  deriving DecidableEq, Repr

def Numeral.toFloat (n : Numeral) : Float := n.size.toFloat n.negative

def Numeral.toRat (n : Numeral) : Rat := if n.negative then -n.size.toRat else n.size.toRat

namespace Text

def takeSign : Text → Text × Text
  | '-' :: rest => (['-'], rest)
  | '+' :: rest => (['+'], rest)
  | t => ([], t)

def isNegative (sign : Text) : Bool := sign = ['-']

def takeDigits (t : Text) : Text × Text := (t.takeWhile isDigit, t.dropWhile isDigit)

/-- Digits with at most one point, of which at least one digit: the whole and the decimal part, the
    characters read, and the rest. -/
def takeMantissa? (t : Text) : Option (Text × Text × Text × Text) :=
  match takeDigits t with
  | ([], '.' :: rest) =>
    match takeDigits rest with
    | ([], _) => none
    | (fraction, rest) => some ([], fraction, '.' :: fraction, rest)
  | ([], _) => none
  | (whole, '.' :: rest) =>
    let (fraction, rest) := takeDigits rest
    some (whole, fraction, whole ++ '.' :: fraction, rest)
  | (whole, rest) => some (whole, [], whole, rest)

/-- A power of ten, `e` and digits with an optional sign. Where it is not complete nothing is read. -/
def takeExponent (t : Text) : Int × Text × Text :=
  match t with
  | c :: rest =>
    if c = 'e' ∨ c = 'E' then
      match takeSign rest with
      | (sign, afterSign) =>
        match takeDigits afterSign with
        | ([], _) => (0, [], t)
        | (digits, rest) =>
          (Binary64.signed (isNegative sign) (digitsValue digits), c :: sign ++ digits, rest)
    else (0, [], t)
  | [] => (0, [], [])

end Text

structure Numeral.Reading where
  value : Numeral
  lexeme : Text
  rest : Text

open Text in
def Numeral.read? (t : Text) : Option Numeral.Reading :=
  let (sign, afterSign) := takeSign t
  match takeMantissa? afterSign with
  | none => none
  | some (whole, fraction, mantissa, afterMantissa) =>
    let (power, exponent, rest) := takeExponent afterMantissa
    some {
      value := ⟨isNegative sign, digitsValue (whole ++ fraction), power - fraction.length⟩
      lexeme := sign ++ mantissa ++ exponent
      rest }

def Numeral.ofText? (t : Text) : Option Numeral :=
  match Numeral.read? t with
  | some ⟨value, _, []⟩ => some value
  | _ => none

namespace Text

theorem takeSign_append (t : Text) : (takeSign t).1 ++ (takeSign t).2 = t := by
  unfold takeSign; split <;> rfl

theorem takeDigits_append (t : Text) : (takeDigits t).1 ++ (takeDigits t).2 = t :=
  List.takeWhile_append_dropWhile

theorem takeMantissa?_append {t whole fraction lexeme rest : Text}
    (h : takeMantissa? t = some (whole, fraction, lexeme, rest)) : lexeme ++ rest = t := by
  have outer := takeDigits_append t
  unfold takeMantissa? at h
  split at h
  · rename_i after cut
    rw [cut] at outer
    have inner := takeDigits_append after
    split at h
    · cases h
    · rename_i digits tail _ cut'
      rw [cut'] at inner
      cases h
      simpa [inner] using outer
  · cases h
  · rename_i digits after _ cut
    rw [cut] at outer
    cases h
    simpa [takeDigits_append after] using outer
  · rename_i cut
    rw [cut] at outer
    cases h
    exact outer

theorem takeExponent_append (t : Text) : (takeExponent t).2.1 ++ (takeExponent t).2.2 = t := by
  unfold takeExponent
  split
  · rename_i c tail
    split
    · have outer := takeSign_append tail
      split
      rename_i sign after cut
      rw [cut] at outer
      have inner := takeDigits_append after
      split
      · rfl
      · rename_i digits rest _ cut'
        rw [cut'] at inner
        simp only [List.cons_append, List.append_assoc, inner, outer]
    · rfl
  · rfl

end Text

theorem Numeral.lexeme_append_rest {t : Text} {reading : Numeral.Reading}
    (h : Numeral.read? t = some reading) : reading.lexeme ++ reading.rest = t := by
  have sign := Text.takeSign_append t
  unfold Numeral.read? at h
  simp only at h
  split at h
  · cases h
  · rename_i whole fraction mantissa after cut
    have body := Text.takeMantissa?_append cut
    cases h
    simp only [List.append_assoc, Text.takeExponent_append, body, sign]

end Flipbook
