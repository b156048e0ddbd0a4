import Flipbook.Markup.Document
import Flipbook.Markup.Selector
import Flipbook.Number.Freeform

namespace Flipbook.Sheet

open Text Markup

inductive AspectError
  | malformedLength
  deriving DecidableEq, Repr

def pixels (t : Text) : Except AspectError (Option Float) :=
  let t := trim t
  let isPart (c : Char) := isDigit c || c = '.'
  let number := t.takeWhile isPart
  let unit := trimStart (t.dropWhile isPart)
  if number.isEmpty || !(unit.isEmpty || unit = "px".toList) then return none
  else
    match toFloat? number with
    | some x => return some x
    | none => throw .malformedLength

def splitRuns (sep : Char → Bool) (t : Text) : List Text :=
  let outer (c? : Option Char) : List Text := if c?.any sep then [[]] else []
  outer t.head? ++ wordsBy sep t ++ outer t.getLast?

def viewBoxSize? (t : Text) : Option (Float × Float) := do
  let parts := splitRuns (fun c => c = ',' || isBlank c) (trim t)
  some (← toFloat? (← parts[2]?), ← toFloat? (← parts[3]?))

def viewBoxRatio? (attributes : Table Text) : Option Float := do
  let (width, height) ← viewBoxSize? (← attributes.get? "viewBox".toList)
  if 0.0 < width ∧ 0.0 < height then some (height / width) else none

def length? (attributes : Table Text) (name : String) : Except AspectError (Option Float) :=
  match attributes.get? name.toList with
  | none => return none
  | some t => pixels t

def rootTag? (frame : Text) : Option Tag :=
  (tags frame).find? (Selector.matchesTag { tag := some "svg".toList })

def aspect (frame : Text) : Except AspectError Float := do
  match rootTag? frame with
  | none => return 1.0
  | some tag =>
    let attributes := tag.attributeMap
    match viewBoxRatio? attributes with
    | some ratio => return ratio
    | none =>
      let width ← length? attributes "width"
      let height ← length? attributes "height"
      match width, height with
      | some width, some height => return if width == 0.0 ∨ height == 0.0 then 1.0 else height / width
      | _, _ => return 1.0

end Flipbook.Sheet
