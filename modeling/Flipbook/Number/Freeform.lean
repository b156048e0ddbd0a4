import Flipbook.Number.Decimal
import Flipbook.Text.Blank

namespace Flipbook.Text

def joinGroups? (before : Bool) : Text → Option Text
  | [] => some []
  | '_' :: c :: rest => if before && isDigit c then (joinGroups? true rest).map (c :: ·) else none
  | ['_'] => none
  | c :: rest => (joinGroups? (isDigit c) rest).map (c :: ·)

def asciiLower (c : Char) : Char := if 'A' ≤ c && c ≤ 'Z' then Char.ofNat (c.toNat + 32) else c

def toFloat? (t : Text) : Option Float := do
  let t ← joinGroups? false (trim t)
  match Numeral.ofText? t with
  | some n => some n.toFloat
  | none =>
    let (sign, word) := takeSign t
    let word := word.map asciiLower
    if word = "inf".toList || word = "infinity".toList then some (Binary64.infinity (isNegative sign))
    else if word = "nan".toList then some Binary64.nan
    else none

/-- More digits than this are neither read nor written. -/
def mostDigits : Nat := 4300

-- A proof that unfolds it would compute the power.
@[irreducible] def isWritable (n : Int) : Bool := n.natAbs < pow10 mostDigits

def ofInt? (n : Int) : Option Text := if isWritable n then some (ofInt n) else none

def toInt? (t : Text) : Option Int := do
  let t ← joinGroups? false (trim t)
  let (sign, digits) := takeSign t
  if digits.isEmpty || !digits.all isDigit || mostDigits < digits.length then none
  else some (Binary64.signed (isNegative sign) (digitsValue digits))

end Flipbook.Text
