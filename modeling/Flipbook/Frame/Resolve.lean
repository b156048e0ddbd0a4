import Flipbook.Frame.Timeline
import Flipbook.Value.Blend

namespace Flipbook.Frame

open Css

/-- The first two neighbours with `progress` between them; the outermost stops if there are none. -/
def surrounding (progress : Float) (first last : Stop) : List Stop → Stop × Stop
  | low :: high :: rest =>
    if low.offset ≤ progress ∧ progress ≤ high.offset then (low, high)
    else surrounding progress first last (high :: rest)
  | _ => (first, last)

/-- The properties of `low`, then those that only `high` has; what both have is blended. -/
def blendStops (low high : Stop) (progress : Float) (timing : Option Text) :
    Except NumberError Properties := do
  let span := high.offset - low.offset
  let here := if 0.0 < span then (progress - low.offset) / span else 0.0
  let blended ← low.properties.mapM fun (name, start) =>
    match high.properties.get? name with
    | some finish => do return (name, ← interpolate start finish here timing)
    | none => return (name, start)
  return blended ++ high.properties.filter fun (name, _) => !low.properties.contains name

/-- The properties that keyframes give at `progress`. Before the first stop and after the last one
    these hold alone. -/
def atProgress (stops : List Stop) (progress : Float) (timing : Option Text) :
    Except NumberError Properties :=
  match stops with
  | [] => return []
  | first :: rest =>
    let last := rest.getLast?.getD first
    if rest.isEmpty ∨ progress ≤ first.offset then return first.properties
    else if last.offset ≤ progress then return last.properties
    else
      let (low, high) := surrounding progress first last stops
      blendStops low high progress timing

def atTime (animation : Animation) (stops : List Stop) (time : Float) : Except NumberError Properties := do
  let progress ← Timeline.progress animation time
  return animation.static.update (← atProgress stops progress (some animation.timing))

end Flipbook.Frame
