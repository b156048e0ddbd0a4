import Flipbook.Css.Animation
import Flipbook.Number.Amount
import Flipbook.Number.Scalar

namespace Flipbook

inductive TimelineError
  | number (error : NumberError)
  | tooManyFrames
  /-- A number of frames whose integer part is zero. -/
  | noFrames
  deriving DecidableEq, Repr

namespace Timeline

open Css

/-- The longest positive duration, or a second if there is none. -/
def total (durations : List Float) : Float :=
  match durations.filter (0.0 < ·) with
  | [] => 1.0
  | first :: rest => rest.foldl (fun longest d => if longest < d then d else longest) first

/-- The number of frames asked for if that is positive, or as many as the rate makes in the whole time,
    at least one. -/
def frameCount (total : Float) (rate : Amount) (count : Option Amount) : Except NumberError Int := do
  match count with
  | some count => if count.isPositive then return ← count.truncate
  | none => pure ()
  return max 1 (← Scalar.roundHalfUp ((← rate.toFloat) * total))

def instants (total : Float) (count : Nat) : List Float :=
  (List.range count).map fun i => i.toFloat / count.toFloat * total

def elapsed (animation : Animation) (time : Float) : Float :=
  let sinceDelay := time - animation.delay
  if 0.0 < sinceDelay then sinceDelay else 0.0

def isReversed (direction : Text) (cycle : Int) : Bool :=
  direction = "reverse".toList
    || (direction = "alternate".toList && cycle % 2 = 1)
    || (direction = "alternate-reverse".toList && cycle % 2 = 0)

/-- How far the animation is through its cycle, and which cycle it is. -/
def position (animation : Animation) (time : Float) : Except NumberError (Float × Int) := do
  if 0.0 < animation.duration then
    let inside ← Binary64.remainder (elapsed animation time) animation.duration
    let cycle ← Binary64.floor (elapsed animation time / animation.duration)
    return (inside / animation.duration, cycle)
  return (0.0, 0)

def progress (animation : Animation) (time : Float) : Except NumberError Float := do
  let (forward, cycle) ← position animation time
  return if isReversed animation.direction cycle then 1.0 - forward else forward

end Timeline
end Flipbook
