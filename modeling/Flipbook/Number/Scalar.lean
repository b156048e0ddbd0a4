import Flipbook.Number.Notation

namespace Flipbook

class Scalar (α : Type) extends Add α, Sub α, Mul α, Div α, OfScientific α where
  lt : α → α → Bool
  le : α → α → Bool
  ofNumeral : Numeral → α
  floor : α → Except NumberError Int
  ofRatio : Int → Nat → Except NumberError α
  text : α → Text

instance : Scalar Float where
  lt x y := x < y
  le x y := x ≤ y
  ofNumeral := Numeral.toFloat
  floor := Binary64.floor
  ofRatio := Binary64.ofRatio
  text := Binary64.sheetText

instance : Scalar Rat where
  lt x y := x < y
  le x y := x ≤ y
  ofNumeral := Numeral.toRat
  floor x := .ok x.floor
  ofRatio n d := .ok ((n : Rat) / (d : Rat))
  text x := Binary64.sheetText (Binary64.nearest (x < 0) x.num.natAbs x.den)

namespace Scalar

variable {α : Type} [Scalar α]

def lerp (a b t : α) : α := a + (b - a) * t

def roundHalfUp (x : α) : Except NumberError Int := floor (x + 0.5)

/-- The nearest decimal with that many places, a half going up. -/
def roundTo (places : Nat) (x : α) : Except NumberError α := do
  let scale ← ofRatio (pow10 places : Nat) 1
  let n ← floor (x * scale + 0.5)
  ofRatio n (pow10 places)

/-- `roundTo 4` for numbers that have no nearest decimal too: they stay what they are. -/
def roundOrKeep (x : α) : α :=
  let scaled := x * 10000.0 + 0.5
  let whole := match floor scaled with
    | .ok n => match ofRatio n 1 with
      | .ok y => y
      | .error _ => scaled
    | .error _ => scaled
  whole / 10000.0

end Scalar
end Flipbook
