import Flipbook.Number.Shortest
import Flipbook.Text.Digit

namespace Flipbook.Binary64

open Text

/-- Where the point stands and how the rest is spelled. -/
structure Style where
  leastPositional : Int
  leastScientific : Int
  exponentDigits : Nat
  wholeSuffix : Text
  infinite : Text
  notANumber : Text

/-- Shortest digits, written out from `0.0001` to below `10 ^ 16`. -/
def Style.plain : Style where
  leastPositional := -4
  leastScientific := 16
  exponentDigits := 2
  wholeSuffix := ".0".toList
  infinite := "inf".toList
  notANumber := "nan".toList

def Style.exponentText (style : Style) (e : Int) : Text :=
  'e' :: (if e < 0 then '-' else '+') :: padLeft '0' style.exponentDigits (ofNat e.natAbs)

def Style.decimalText (style : Style) (d : Decimal) : Text :=
  let digits := ofNat d.digits
  let leading := d.exponent + digits.length - 1
  if leading < style.leastPositional ∨ style.leastScientific ≤ leading then
    match digits with
    | [] => []
    | [c] => c :: style.exponentText leading
    | c :: rest => c :: '.' :: rest ++ style.exponentText leading
  else if 0 ≤ d.exponent then digits ++ List.replicate d.exponent.toNat '0' ++ style.wholeSuffix
  else if leading < 0 then '0' :: '.' :: List.replicate (-leading - 1).toNat '0' ++ digits
  else digits.take (leading + 1).toNat ++ '.' :: digits.drop (leading + 1).toNat

def Style.text (style : Style) (x : Float) : Text :=
  match parts x with
  | .notANumber => style.notANumber
  | .infinite negative => (if negative then ['-'] else []) ++ style.infinite
  | .finite negative 0 _ => (if negative then ['-'] else []) ++ '0' :: style.wholeSuffix
  | .finite negative mantissa exponent =>
    (if negative then ['-'] else []) ++ style.decimalText (shortest mantissa exponent)

def plainText (x : Float) : Text := Style.plain.text x

/-- The integer that `x` is, if it is one. -/
def whole? (x : Float) : Option Int :=
  match parts x with
  | .finite negative mantissa exponent =>
    let unit := pow2 (-exponent).toNat
    if mantissa % unit = 0 then some (signed negative (mantissa / unit * pow2 exponent.toNat)) else none
  | _ => none

/-- The text of `x` in a style sheet: all digits of an integer, else the plain text. -/
def sheetText (x : Float) : Text :=
  match whole? x with
  | some n => Text.ofInt n
  | none => plainText x

end Flipbook.Binary64
