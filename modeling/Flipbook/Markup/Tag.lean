import Flipbook.Markup.Escape
import Flipbook.Table
import Flipbook.Text.Blank
import Flipbook.Text.Word

namespace Flipbook.Markup

open Text

structure Attribute where
  gap : Text
  name : Text
  /-- The value without its quotes; none for a bare name. -/
  value : Option Text
  text : Text
  deriving DecidableEq, Repr

structure Tag where
  name : Text
  attributes : List Attribute
  /-- Attributes that were set and that the source does not have. -/
  added : List Attribute := []
  tail : Text
  selfClosing : Bool
  deriving DecidableEq, Repr

namespace Tag

def ending (tag : Tag) : Text := if tag.selfClosing then ['/', '>'] else ['>']

def render (tag : Tag) : Text :=
  '<' :: tag.name ++ tag.attributes.flatMap (fun a => a.gap ++ a.text)
    ++ tag.added.flatMap (fun a => a.gap ++ a.text) ++ tag.tail ++ tag.ending

/-- Values by name. Of two attributes of one name the later counts; a bare name has no value. -/
def attributeMap (tag : Tag) : Table Text :=
  .ofList ((tag.attributes ++ tag.added).filterMap fun a => a.value.map fun value => (a.name, value))

def written (name value : Text) : Text := name ++ '=' :: '"' :: escape value ++ ['"']

def setFirst? (name value : Text) : List Attribute → Option (List Attribute)
  | [] => none
  | a :: rest =>
    if a.name = name then
      some ({ a with value := some value, text := written name value } :: rest)
    else (setFirst? name value rest).map (a :: ·)

def set (tag : Tag) (name value : Text) : Tag :=
  match setFirst? name value tag.attributes with
  | some attributes => { tag with attributes }
  | none =>
    match setFirst? name value tag.added with
    | some added => { tag with added }
    | none =>
      { tag with added := tag.added ++ [⟨[' '], name, some value, written name value⟩] }

def setAll (tag : Tag) (values : List (Text × Text)) : Tag :=
  values.foldl (fun tag (name, value) => tag.set name value) tag

end Tag

def isAttributeNameChar (c : Char) : Bool := !(isBlank c || c = '=' || c = '/' || c = '>')

def isBareChar (c : Char) : Bool := !(isBlank c || c = '"' || c = '\'' || c = '>')

def isTagNameChar (c : Char) : Bool := isWord c || c = ':' || c = '.' || c = '-'

def takeValue? (t : Text) : Option (Text × Text × Text) :=
  match t with
  | [] => none
  | c :: rest =>
    if c = '"' ∨ c = '\'' then
      (cutAt? c rest).map fun (value, after) => (value, c :: value ++ [c], after)
    else
      match t.takeWhile isBareChar with
      | [] => none
      | value => some (value, value, t.dropWhile isBareChar)

/-- The value that an equals sign announces. Without one there is none and nothing is read; with one
    it has to follow. -/
def takeAssigned? (t : Text) : Option (Option Text × Text × Text) :=
  match t.dropWhile isBlank with
  | '=' :: rest => do
    let (value, written, after) ← takeValue? (rest.dropWhile isBlank)
    some (some value, t.takeWhile isBlank ++ '=' :: rest.takeWhile isBlank ++ written, after)
  | _ => some (none, [], t)

/-- Attributes up to the end of a tag, the blanks before the end, whether it closes itself. Each takes
    at least the blank before it, so `fuel` is enough if it is the length of the text. -/
def takeAttributes? : Nat → Text → Option (List Attribute × Text × Bool × Text)
  | 0, _ => none
  | fuel + 1, t =>
    let gap := t.takeWhile isBlank
    match t.dropWhile isBlank with
    | '>' :: rest => some ([], gap, false, rest)
    | '/' :: '>' :: rest => some ([], gap, true, rest)
    | rest =>
      let name := rest.takeWhile isAttributeNameChar
      if gap.isEmpty || name.isEmpty then none
      else do
        let (value, assigned, rest) ← takeAssigned? (rest.dropWhile isAttributeNameChar)
        let (others, tail, selfClosing, rest) ← takeAttributes? fuel rest
        some (⟨gap, name, value, name ++ assigned⟩ :: others, tail, selfClosing, rest)

def Tag.read? (t : Text) : Option (Tag × Text) :=
  match t with
  | '<' :: c :: rest =>
    if isAsciiLetter c then do
      let name := c :: rest.takeWhile isTagNameChar
      let (attributes, tail, selfClosing, rest) ←
        takeAttributes? (t.length + 1) (rest.dropWhile isTagNameChar)
      some ({ name, attributes, tail, selfClosing }, rest)
    else none
  | _ => none

end Flipbook.Markup
