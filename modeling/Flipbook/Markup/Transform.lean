import Flipbook.Number.Scalar
import Flipbook.Text.Call
import Flipbook.Text.Word

namespace Flipbook.Markup

open Text Binary64

def leadingNumber? (t : Text) : Option Float := (Numeral.read? (trimStart t)).map (·.value.toFloat)

inductive AngleUnit
  | degrees
  | radians
  | turns
  | gradians
  deriving DecidableEq, Repr

/-- Degrees in a radian: a half circle over the double nearest to its radians. -/
def radian : Float := 180.0 / 3.141592653589793

def AngleUnit.toDegrees (unit : AngleUnit) (x : Float) : Float :=
  match unit with
  | degrees => x
  | radians => x * radian
  | turns => x * 360.0
  | gradians => x * 0.9

def AngleUnit.ofText? (t : Text) : Option AngleUnit :=
  if t.isEmpty || t = "deg".toList then some degrees
  else if t = "rad".toList then some radians
  else if t = "turn".toList then some turns
  else if t = "grad".toList then some gradians
  else none

/-- An angle in degrees. What is no angle keeps the number in front, or all of its text. -/
def degreesText (t : Text) : Except NumberError Text :=
  match Numeral.read? (trimStart t) with
  | none => return trim t
  | some reading =>
    let x := reading.value.toFloat
    match AngleUnit.ofText? (trim reading.rest) with
    | some unit => return sheetText (← Scalar.roundTo 4 (unit.toDegrees x))
    | none => return sheetText x

/-- The numbers of an argument list without their units; a word counts as zero. -/
def numberTexts (arguments : Text) : List Text :=
  (entries arguments).map fun entry => ((leadingNumber? entry).map sheetText).getD ['0']

def numberText (arguments : Text) (place : Nat) (missing : Char) : Text :=
  (numberTexts arguments)[place]?.getD [missing]

inductive TransformKind
  | translate
  | translateX
  | translateY
  | rotate
  | scale
  | scaleX
  | scaleY
  | skew
  | other
  deriving DecidableEq, Repr

def TransformKind.ofName (name : Text) : TransformKind :=
  if name = "translateX".toList then translateX
  else if name = "translateY".toList then translateY
  else if name = "translate".toList then translate
  else if name = "rotate".toList then rotate
  else if name = "scale".toList then scale
  else if name = "skewX".toList ∨ name = "skewY".toList then skew
  else if name = "scaleX".toList then scaleX
  else if name = "scaleY".toList then scaleY
  else other

inductive TransformPart
  | placed (text : Text)
  | scaleX (factor : Text)
  | scaleY (factor : Text)
  deriving DecidableEq, Repr

def callText (name : Text) (arguments : List Text) : Text :=
  name ++ '(' :: joinWith [','] arguments ++ [')']

def transformPart (call : Call) : Except NumberError TransformPart :=
  let number := numberText call.arguments
  match TransformKind.ofName call.name with
  | .translateX => return .placed (callText "translate".toList [number 0 '0', ['0']])
  | .translateY => return .placed (callText "translate".toList [['0'], number 0 '0'])
  | .translate => return .placed (callText call.name [number 0 '0', number 1 '0'])
  | .rotate => return .placed (callText call.name (← (entries call.arguments).mapM degreesText))
  | .scale =>
    match numberTexts call.arguments with
    | [] => return .placed (callText call.name [['1']])
    | factors => return .placed (callText call.name (factors.take 2))
  | .skew => return .placed (callText call.name [← degreesText call.arguments])
  | .scaleX => return .scaleX (number 0 '1')
  | .scaleY => return .scaleY (number 0 '1')
  | .other => return .placed (callText call.name [trim call.arguments])

/-- The last factor given for each axis, `1` for an axis without one; nothing if no axis has one. -/
def axisScale? (parts : List TransformPart) : Option Text :=
  let last (factor? : TransformPart → Option Text) := (parts.filterMap factor?).getLast?
  let x := last fun | .scaleX factor => some factor | _ => none
  let y := last fun | .scaleY factor => some factor | _ => none
  if x.isNone && y.isNone then none
  else some (callText "scale".toList [x.getD ['1'], y.getD ['1']])

def transformText (list : Text) : Except NumberError Text := do
  let parts ← (Call.findAll isWord list).mapM transformPart
  let placed := parts.filterMap fun | .placed text => some text | _ => none
  return joinWith [' '] (placed ++ (axisScale? parts).toList)

end Flipbook.Markup
