import Flipbook.Text.Scan

namespace Flipbook.Markup

open Text

/-- Whether `c` is the lower case letter `letter` in some case; the long s is an s. -/
def isCaseOf (letter c : Char) : Bool :=
  c = letter || (c.isUpper && c.toLower = letter) || (letter = 's' && c = 'ſ')

/-- The characters that match `lead` in some letter case, and the rest. -/
def takeCased? : Text → Text → Option (Text × Text)
  | [], t => some ([], t)
  | _ :: _, [] => none
  | letter :: lead, c :: t =>
    if isCaseOf letter c then (takeCased? lead t).map fun (taken, rest) => (c :: taken, rest) else none

def cutAtCased? (mark : Text) : Text → Option (Text × Text)
  | [] => none
  | c :: rest =>
    match takeCased? mark (c :: rest) with
    | some (taken, _) => some ([], taken)
    | none => (cutAtCased? mark rest).map fun (before, taken) => (c :: before, taken)

/-- A style element, by its content. -/
def styleElement : Pattern Text := fun t => do
  let (opening, rest) ← takeCased? "<style".toList t
  let (attributes, rest) ← cutAt? '>' rest
  let (content, closing) ← cutAtCased? "</style>".toList rest
  some (content, opening ++ attributes ++ '>' :: content ++ closing)

def styleContent? (document : Text) : Option Text := styleElement.find? document

def removeStyles (document : Text) : Text := styleElement.erase document

end Flipbook.Markup
