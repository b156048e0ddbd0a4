import Flipbook.Number.Decimal
import Flipbook.Text.Blank

namespace Flipbook.Css

open Text

/-- An unsigned decimal whose point, if any, has digits after it, and the rest. -/
def takePlain? (t : Text) : Option (Decimal × Text) :=
  match takeDigits t with
  | (whole, '.' :: rest) =>
    match takeDigits rest with
    | ([], _) => none
    | (fraction, rest) => some (⟨digitsValue (whole ++ fraction), -fraction.length⟩, rest)
  | ([], _) => none
  | (whole, rest) => some (⟨digitsValue whole, 0⟩, rest)

inductive TimeUnit
  | seconds
  | milliseconds
  deriving DecidableEq, Repr

structure Time where
  amount : Decimal
  unit : TimeUnit
  deriving DecidableEq, Repr

def Time.ofText? (t : Text) : Option Time := do
  match ← takePlain? t with
  | (amount, ['s']) => some ⟨amount, .seconds⟩
  | (amount, ['m', 's']) => some ⟨amount, .milliseconds⟩
  | _ => none

def Time.seconds (time : Time) : Float :=
  match time.unit with
  | .seconds => time.amount.toFloat false
  | .milliseconds => time.amount.toFloat false / 1000.0

/-- The seconds that a text says; none at all if it is no time. -/
def duration (t : Text) : Float :=
  match Time.ofText? (trim t) with
  | some time => time.seconds
  | none => 0.0

end Flipbook.Css
