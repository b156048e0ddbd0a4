import Flipbook.Css.Declaration
import Flipbook.Markup.Document
import Flipbook.Markup.Origin
import Flipbook.Markup.Selector
import Flipbook.Text.LowerCase

namespace Flipbook.Markup

open Text Css

/-- The attribute of a property: a dash and the small letter for a capital, `strokeWidth` as
    `stroke-width`. -/
def attributeName (property : Text) : Text :=
  lowerCase (property.flatMap fun c => if 'A' ≤ c && c ≤ 'Z' then ['-', c] else [c])

def originProperty : Text := "transform-origin".toList

def presentation (canvas : Amount) (properties : Properties) : Except NumberError (List (Text × Text)) :=
  (properties.filter (·.1 ≠ originProperty)).mapM fun (property, value) => do
    let name := attributeName property
    if name = "transform".toList then
      return (name, ← pivot canvas (← transformText value) (properties.get? originProperty))
    return (name, value)

/-- The document with the properties on each element that the selector matches. A selector that is not
    understood and properties that are none leave it as it is. -/
def present (canvas : Amount) (document selector : Text) (properties : Properties) :
    Except NumberError Text := do
  match Selector.ofText? selector with
  | none => return document
  | some selector =>
    if properties.isEmpty then return document
    let values ← presentation canvas properties
    return mapTags (fun tag => if selector.matchesTag tag then some (tag.setAll values) else none) document

end Flipbook.Markup
