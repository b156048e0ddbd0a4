import Flipbook.Number.Freeform

namespace Flipbook

inductive Amount
  | whole (n : Int)
  | binary (x : Float)

namespace Amount

def toFloat : Amount → Except NumberError Float
  | whole n => Binary64.ofInt n
  | binary x => .ok x

def isZero : Amount → Bool
  | whole n => n = 0
  | binary x => x == 0.0

/-- Not a number is not positive, and it does not count as zero or less. -/
def isZeroOrLess : Amount → Bool
  | whole n => n ≤ 0
  | binary x => x ≤ 0.0

def isPositive : Amount → Bool
  | whole n => 0 < n
  | binary x => 0.0 < x

def truncate : Amount → Except NumberError Int
  | whole n => .ok n
  | binary x => Binary64.truncate x

end Amount
end Flipbook
