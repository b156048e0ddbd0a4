import Flipbook.Number.Decimal

namespace Flipbook.Binary64

/-- The interval of reals that round to a double, in units of `2 ^ exponent`: the double stands at
    `centre`, and the ends belong to it when the mantissa is even. -/
structure Neighbourhood where
  low : Nat
  centre : Nat
  high : Nat
  exponent : Int
  closed : Bool

def neighbourhood (mantissa : Nat) (exponent : Int) : Neighbourhood where
  low := 4 * mantissa - if mantissa = pow2 52 ∧ -1074 < exponent then 1 else 2
  centre := 4 * mantissa
  high := 4 * mantissa + 2
  exponent := exponent - 2
  closed := mantissa % 2 = 0

def Neighbourhood.multipleOf? (place : Neighbourhood) (power : Int) : Option Nat :=
  let up := pow2 place.exponent.toNat * pow10 (-power).toNat
  let down := pow2 (-place.exponent).toNat * pow10 power.toNat
  let inside (n : Nat) : Bool :=
    if place.closed then place.low * up ≤ n * down && n * down ≤ place.high * up
    else place.low * up < n * down && n * down < place.high * up
  let below := place.centre * up / down
  let twice := 2 * (place.centre * up % down)
  let upper := if twice = down then below % 2 = 1 else down < twice
  match inside below, inside (below + 1) with
  | true, true => some (if upper then below + 1 else below)
  | true, false => some below
  | false, true => some (below + 1)
  | false, false => none

def Neighbourhood.search (place : Neighbourhood) (power : Int) : Nat → Decimal
  | 0 => ⟨place.centre, 0⟩
  | fuel + 1 =>
    match place.multipleOf? power with
    | some n => ⟨n, power⟩
    | none => place.search (power - 1) fuel

/-- The shortest decimal that rounds to `mantissa * 2 ^ exponent`, a positive double. The search
    starts above the leading digit: `30103 / 100000` is a little more than the logarithm of two. -/
def shortest (mantissa : Nat) (exponent : Int) : Decimal :=
  let leading := ((mantissa.log2 + exponent + 1) * 30103) / 100000 + 1
  ((neighbourhood mantissa exponent).search leading 24).strip 24

end Flipbook.Binary64
