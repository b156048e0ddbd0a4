import Flipbook.Markup.Transform
import Flipbook.Number.Amount

namespace Flipbook.Markup

open Text Binary64

abbrev Point := Float × Float

/-- A coordinate; nothing for a word that says no place. Keywords of both axes are understood. -/
def originCoordinate (canvas : Amount) (t : Text) : Except NumberError (Option Float) :=
  if t = "center".toList then return some ((← canvas.toFloat) / 2.0)
  else if t = "left".toList ∨ t = "top".toList then return some 0.0
  else if t = "right".toList ∨ t = "bottom".toList then return some (← canvas.toFloat)
  else
    match leadingNumber? t with
    | none => return none
    | some x => if t.getLast? = some '%' then return some (x / 100.0 * (← canvas.toFloat)) else return some x

def origin (canvas : Amount) (t : Text) : Except NumberError (Option Point) := do
  match words t with
  | [] => return none
  | [both] => return (← originCoordinate canvas both).map fun c => (c, c)
  | first :: second :: _ =>
    let x ← originCoordinate canvas first
    let y ← originCoordinate canvas second
    return x.bind fun x => y.map fun y => (x, y)

def shift (point : Point) : Except NumberError Text := do
  let x ← Scalar.roundTo 4 point.1
  let y ← Scalar.roundTo 4 point.2
  return callText "translate".toList [sheetText x, sheetText y]

/-- The transform about the origin that `about` says. A blank transform stays, and so does any
    transform if the origin is missing, empty or not understood. -/
def pivot (canvas : Amount) (transform : Text) (about : Option Text) : Except NumberError Text := do
  match about with
  | none | some [] => return transform
  | some about =>
    if transform.all isBlank then return transform
    match ← origin canvas about with
    | none => return transform
    | some (x, y) =>
      let there ← shift (x, y)
      let back ← shift (-x, -y)
      return joinWith [' '] [there, transform, back]

end Flipbook.Markup
