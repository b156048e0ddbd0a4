import Flipbook.Css.Nesting
import Flipbook.Css.Time
import Flipbook.Text.Digit

namespace Flipbook.Css

open Text

structure AnimationFields where
  name : Option Text := none
  duration : Option Float := none
  delay : Option Float := none
  timing : Option Text := none
  iterations : Option Text := none
  direction : Option Text := none
  fill : Option Text := none

inductive TokenKind
  | time
  | timing
  | iterations
  | direction
  | fill
  | playState
  | name
  deriving DecidableEq, Repr

def timingKeywords : List String :=
  ["linear", "ease", "ease-in", "ease-out", "ease-in-out", "step-start", "step-end"]

def directionKeywords : List String := ["normal", "reverse", "alternate", "alternate-reverse"]

def fillKeywords : List String := ["none", "forwards", "backwards", "both"]

def playStateKeywords : List String := ["running", "paused"]

/-- The first of these tests that a token meets decides. -/
def tokenKind (token : Text) : TokenKind :=
  if (Time.ofText? token).isSome then .time
  else if isOneOf timingKeywords token || (after? "cubic-bezier(".toList token).isSome then .timing
  else if token = "infinite".toList || (!token.isEmpty && token.all isDigitLike) then .iterations
  else if isOneOf directionKeywords token then .direction
  else if isOneOf fillKeywords token then .fill
  else if isOneOf playStateKeywords token then .playState
  else .name

def AnimationFields.add (fields : AnimationFields) (token : Text) : AnimationFields :=
  match tokenKind token with
  | .time =>
    match fields.duration with
    | none => { fields with duration := some (Css.duration token) }
    | some _ => { fields with delay := some (Css.duration token) }
  | .timing => { fields with timing := some token }
  | .iterations => { fields with iterations := some token }
  | .direction => { fields with direction := some token }
  | .fill => { fields with fill := some token }
  | .playState => fields
  | .name => { fields with name := some token }

/-- Only the first animation of a list counts. -/
def shorthand (t : Text) : AnimationFields :=
  match layers t with
  | [] => {}
  | layer :: _ => (tokens layer).foldl AnimationFields.add {}

end Flipbook.Css
