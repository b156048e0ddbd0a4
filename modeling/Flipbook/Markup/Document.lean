import Flipbook.Markup.Tag
import Flipbook.Text.Scan

namespace Flipbook.Markup

open Text

inductive Token
  | comment
  | characterData
  | instruction
  /-- `<!` up to the next `>`; also what is left of a comment or character data without end. -/
  | declaration
  | tag (tag : Tag)
  deriving DecidableEq, Repr

def span? (opening closing : String) (t : Text) : Option Text := do
  let body ← after? opening.toList t
  let (inside, _) ← cutAtText? closing.toList body
  some (opening.toList ++ inside ++ closing.toList)

def token : Pattern Token := fun t =>
  match t with
  | '<' :: _ =>
    match span? "<!--" "-->" t with
    | some lexeme => some (.comment, lexeme)
    | none =>
      match span? "<![CDATA[" "]]>" t with
      | some lexeme => some (.characterData, lexeme)
      | none =>
        match span? "<?" "?>" t with
        | some lexeme => some (.instruction, lexeme)
        | none =>
          match span? "<!" ">" t with
          | some lexeme => some (.declaration, lexeme)
          | none => (Tag.read? t).map fun (tag, _) => (.tag tag, tag.render)
  | _ => none

def tag? : Piece Token → Option Tag
  | .found (.tag tag) _ => some tag
  | _ => none

def tags (document : Text) : List Tag := (token.scan document).filterMap tag?

def placedTagsFrom (start : Nat) : List (Piece Token) → List (Nat × Nat × Tag)
  | [] => []
  | piece :: rest =>
    let stop := start + piece.lexeme.length
    match tag? piece with
    | some tag => (start, stop, tag) :: placedTagsFrom stop rest
    | none => placedTagsFrom stop rest

def placedTags (document : Text) : List (Nat × Nat × Tag) := placedTagsFrom 0 (token.scan document)

/-- The document with its tags rewritten where `edit` gives another. -/
def mapTags (edit : Tag → Option Tag) (document : Text) : Text :=
  (token.scan document).flatMap fun piece =>
    match (tag? piece).bind edit with
    | some tag => tag.render
    | none => piece.lexeme

end Flipbook.Markup
