import Flipbook.Text.Blank
import Flipbook.Timing.Bezier

namespace Flipbook

inductive Easing (α : Type)
  | linear
  | stepStart
  | stepEnd
  | curve (curve : Bezier α)

namespace Easing

variable {α : Type} [Scalar α]

open Scalar

def apply (easing : Easing α) (t : α) : α :=
  match easing with
  | linear => t
  | stepStart => if le t 0.0 then 0.0 else 1.0
  | stepEnd => if le 1.0 t then 1.0 else 0.0
  | curve c => c.ease t

def named : List (String × Easing α) :=
  [("linear", linear), ("ease", curve ⟨0.25, 0.1, 0.25, 1.0⟩), ("ease-in", curve ⟨0.42, 0.0, 1.0, 1.0⟩),
    ("ease-out", curve ⟨0.0, 0.0, 0.58, 1.0⟩), ("ease-in-out", curve ⟨0.42, 0.0, 0.58, 1.0⟩),
    ("step-start", stepStart), ("step-end", stepEnd)]

def coordinates? : Nat → Text → Option (List Numeral × Text)
  | 0, t => some ([], t)
  | count + 1, t => do
    let reading ← Numeral.read? (Text.trimStart t)
    let rest := Text.trimStart reading.rest
    let rest ← if count = 0 then some rest else Text.after? [','] rest
    let (others, rest) ← coordinates? count rest
    some (reading.value :: others, rest)

def controlPoints? (t : Text) : Option (List Numeral) := do
  let arguments ← Text.after? "cubic-bezier(".toList t
  match ← coordinates? 4 arguments with
  | (points, [')']) => some points
  | _ => none

def isTime (x : α) : Bool := le 0.0 x && le x 1.0

def curve? (t : Text) : Option (Easing α) :=
  match controlPoints? t with
  | some [x1, y1, x2, y2] =>
    let x1 := ofNumeral x1
    let x2 := ofNumeral x2
    if isTime x1 && isTime x2 then some (curve ⟨x1, ofNumeral y1, x2, ofNumeral y2⟩) else none
  | _ => none

def ofText (t : Text) : Easing α :=
  let name := Text.trim t
  match named.find? (fun (known, _) => known.toList = name) with
  | some (_, easing) => easing
  | none => (curve? name).getD linear

def ofOption (t : Option Text) : Easing α := (t.map ofText).getD linear

end Easing
end Flipbook
