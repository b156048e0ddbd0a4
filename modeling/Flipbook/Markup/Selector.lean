import Flipbook.Markup.Tag

namespace Flipbook.Markup

open Text

structure Selector where
  tag : Option Text := none
  id : Option Text := none
  classes : List Text := []
  deriving DecidableEq, Repr

/-- Cuts before each `#` and `.`: what comes first, and each mark with what follows it. -/
def cutMarks : Text → Text × List (Char × Text)
  | [] => ([], [])
  | c :: rest =>
    let (run, marked) := cutMarks rest
    if c = '#' ∨ c = '.' then ([], (c, run) :: marked) else (c :: run, marked)

def isTagName (t : Text) : Bool :=
  match t with
  | c :: rest => isAsciiLetter c && rest.all isNameChar
  | [] => false

def isMarkedName (t : Text) : Bool :=
  match t with
  | c :: rest => (isAsciiLetter c || c = '_') && rest.all isNameChar
  | [] => false

def Selector.ofText? (t : Text) : Option Selector :=
  let t := trim t
  let (tag, marked) := cutMarks t
  if t.isEmpty || !(tag.isEmpty || isTagName tag) || !marked.all (fun (_, name) => isMarkedName name) then
    none
  else
    let named (mark : Char) := (marked.filter (·.1 = mark)).map (·.2)
    match named '#' with
    | _ :: _ :: _ => none
    | ids => some ⟨if tag.isEmpty then none else some tag, ids.head?, named '.'⟩

def Selector.matches (selector : Selector) (tagName : Text) (attributes : Table Text) : Bool :=
  (selector.tag.isNone || selector.tag = some tagName)
    && (selector.id.isNone || selector.id = attributes.get? "id".toList)
    && selector.classes.all fun name => (words ((attributes.get? "class".toList).getD [])).contains name

def Selector.matchesTag (selector : Selector) (tag : Tag) : Bool :=
  selector.matches tag.name tag.attributeMap

end Flipbook.Markup
