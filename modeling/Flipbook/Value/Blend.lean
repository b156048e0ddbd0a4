import Flipbook.Timing.Easing
import Flipbook.Value.Classify

namespace Flipbook

open Scalar

variable {α : Type} [Scalar α]

def switch (start finish : Text) (t : α) : Text := if lt t 0.5 then start else finish

def blendNumber (a b : Numeral) (t : α) : Except NumberError Text := do
  return text (← roundTo 4 (lerp (ofNumeral a) (ofNumeral b) t))

def channelText (n : Int) : Text :=
  Text.padLeft '0' 2 (Nat.toDigits 16 (min 255 n).toNat)

def blendChannel (a b : Nat) (t : α) : Except NumberError Text := do
  let channel (n : Nat) : α := ofNumeral ⟨false, n, 0⟩
  return channelText (← roundHalfUp (lerp (channel a) (channel b) t))

def blendColor (a b : Nat × Nat × Nat) (t : α) : Except NumberError Text := do
  let red ← blendChannel a.1 b.1 t
  let green ← blendChannel a.2.1 b.2.1 t
  let blue ← blendChannel a.2.2 b.2.2 t
  return '#' :: red ++ green ++ blue

def argument? (t : Text) : Option (Numeral × Text) :=
  (measure? t).or ((Numeral.ofText? t).map fun amount => (amount, []))

def blendArguments (t : α) : List Text → List Text → Except NumberError (Option (List Text))
  | a :: rest, b :: rest' =>
    match argument? a, argument? b with
    | some (x, unit), some (y, unit') => do
      let number ← blendNumber x y t
      let others ← blendArguments t rest rest'
      return others.map ((number ++ if unit.isEmpty then unit' else unit) :: ·)
    | _, _ => if a = b then do return (← blendArguments t rest rest').map (a :: ·) else return none
  | _, _ => return some []

def blendCalls (t : α) : List FunctionCall → List FunctionCall → Except NumberError (Option (List Text))
  | f :: rest, g :: rest' => do
    if f.name ≠ g.name ∨ f.arguments.length ≠ g.arguments.length then return none
    match ← blendArguments t f.arguments g.arguments with
    | none => return none
    | some arguments =>
      let call := f.name ++ '(' :: Text.joinWith ", ".toList arguments ++ [')']
      return (← blendCalls t rest rest').map (call :: ·)
  | _, _ => return some []

def blendPath (t : α) : List PathToken → List PathToken → Option (List Text)
  | .command a :: rest, .command b :: rest' =>
    if a = b then (blendPath t rest rest').map ([a] :: ·) else none
  | .number _ a :: rest, .number _ b :: rest' =>
    (blendPath t rest rest').map (text (roundOrKeep (lerp (ofNumeral a) (ofNumeral b) t)) :: ·)
  | [], [] => some []
  | _, _ => none

def Value.blend (start finish : Value) (t : α) : Except NumberError Text :=
  match start.kind, finish.kind with
  | .color r g b, .color r' g' b' => blendColor (r, g, b) (r', g', b') t
  | .functions calls, .functions calls' =>
    if calls.length = calls'.length then do
      match ← blendCalls t calls calls' with
      | some texts => return Text.joinWith [' '] texts
      | none => return switch start.text finish.text t
    else return switch start.text finish.text t
  | .measure a unit, .measure b unit' =>
    if unit = unit' then do return (← blendNumber a b t) ++ unit
    else return switch start.text finish.text t
  | .number a, .number b => blendNumber a b t
  | .path tokens, .path tokens' =>
    match blendPath t tokens tokens' with
    | some texts => return Text.joinWith [' '] texts
    | none => return switch start.text finish.text t
  | _, _ => return switch start.text finish.text t

def interpolate (start finish : Text) (progress : α) (timing : Option Text) : Except NumberError Text :=
  if le progress 0.0 then return start
  else if le 1.0 progress then return finish
  else (classify start).blend (classify finish) ((Easing.ofOption timing).apply progress)

end Flipbook
