
namespace Flipbook

/-- Powers of two are taken of naturals only, whatever other powers are known. -/
abbrev pow2 (n : Nat) : Nat := Nat.pow 2 n

abbrev pow10 (n : Nat) : Nat := Nat.pow 10 n

inductive NumberError
  | notANumber
  | tooLarge
  deriving DecidableEq, Repr

namespace Binary64

/-- What the bits of a double say; a finite one is `± mantissa * 2 ^ exponent`. -/
inductive Parts
  | finite (negative : Bool) (mantissa : Nat) (exponent : Int)
  | infinite (negative : Bool)
  | notANumber
  deriving DecidableEq, Repr

def parts (x : Float) : Parts :=
  let bits : Nat := x.toBits.toNat
  let negative : Bool := pow2 63 ≤ bits
  let biased : Nat := bits / pow2 52 % pow2 11
  let fraction : Nat := bits % pow2 52
  if biased = 2047 then if fraction = 0 then .infinite negative else .notANumber
  else if biased = 0 then .finite negative fraction (-1074)
  else .finite negative (pow2 52 + fraction) (biased - 1075)

def magnitude (num den : Nat) : Int :=
  let guess : Int := (num.log2 : Int) - den.log2
  if den * pow2 guess.toNat ≤ num * pow2 (-guess).toNat then guess else guess - 1

/-- The quotient to the nearest integer, a tie to the even one. -/
def divNearest (num den : Nat) : Nat :=
  let quotient := num / den
  let twice := 2 * (num % den)
  if twice < den then quotient
  else if den < twice then quotient + 1
  else quotient + quotient % 2

/-- Bits of the double nearest to `num / den`. The leading bit of a full mantissa adds one to the
    exponent field, so the two are summed, and a mantissa rounded up to a power of two carries. -/
def nearestBits (num den : Nat) : Nat :=
  if num = 0 then 0
  else
    let exponent := max (-1074) (magnitude num den - 52)
    let mantissa := divNearest (num * pow2 (-exponent).toNat) (den * pow2 exponent.toNat)
    min (2047 * pow2 52) ((exponent + 1074).toNat * pow2 52 + mantissa)

def nearest (negative : Bool) (num den : Nat) : Float :=
  Float.ofBits (.ofNat ((if negative then pow2 63 else 0) + nearestBits num den))

def infinity (negative : Bool) : Float := nearest negative (pow2 1024) 1

def nan : Float := 0.0 / 0.0

def isFinite (x : Float) : Bool :=
  match parts x with
  | .finite .. => true
  | _ => false

def isNaN (x : Float) : Bool :=
  match parts x with
  | .notANumber => true
  | _ => false

def ofRatio (num : Int) (den : Nat) : Except NumberError Float :=
  if nearestBits num.natAbs den = 2047 * pow2 52 then .error .tooLarge
  else .ok (nearest (num < 0) num.natAbs den)

def ofInt (n : Int) : Except NumberError Float := ofRatio n 1

def signed (negative : Bool) (n : Nat) : Int := if negative then -(n : Int) else n

def floor (x : Float) : Except NumberError Int :=
  match parts x with
  | .finite negative mantissa exponent =>
    .ok (signed negative (mantissa * pow2 exponent.toNat) / (pow2 (-exponent).toNat : Nat))
  | .infinite _ => .error .tooLarge
  | .notANumber => .error .notANumber

def truncate (x : Float) : Except NumberError Int :=
  match parts x with
  | .finite negative mantissa exponent =>
    .ok (signed negative (mantissa * pow2 exponent.toNat / pow2 (-exponent).toNat))
  | .infinite _ => .error .tooLarge
  | .notANumber => .error .notANumber

def roundEven (x : Float) : Except NumberError Int :=
  match parts x with
  | .finite negative mantissa exponent =>
    .ok (signed negative (divNearest (mantissa * pow2 exponent.toNat) (pow2 (-exponent).toNat)))
  | .infinite _ => .error .tooLarge
  | .notANumber => .error .notANumber

/-- What exact division of `x` by `y` leaves over, with the sign of `x`. -/
def remainder (x y : Float) : Except NumberError Float :=
  match parts x, parts y with
  | .notANumber, _ => .ok x
  | _, .notANumber => .ok y
  | .infinite _, _ => .error .notANumber
  | .finite .., .infinite _ => .ok x
  | .finite negative m e, .finite _ n f =>
    if n = 0 then .error .notANumber
    else
      let unit := min e f
      let rest := m * pow2 (e - unit).toNat % (n * pow2 (f - unit).toNat)
      .ok (nearest negative (rest * pow2 unit.toNat) (pow2 (-unit).toNat))

end Binary64
end Flipbook
