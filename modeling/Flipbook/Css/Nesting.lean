import Flipbook.Text.Blank

namespace Flipbook.Css

open Text

def deepen (depth : Nat) (c : Char) : Nat :=
  if c = '(' then depth + 1 else if c = ')' then depth - 1 else depth

/-- The pieces between separators at depth zero, where the text begins at `depth`. -/
def splitOutside (sep : Char → Bool) (depth : Nat) : Text → List Text
  | [] => [[]]
  | c :: rest =>
    match splitOutside sep (deepen depth c) rest with
    | [] => [[c]]
    | piece :: pieces =>
      if sep c && deepen depth c = 0 then [] :: piece :: pieces else (c :: piece) :: pieces

/-- Comma separated layers, trimmed, without the blank ones. -/
def layers (t : Text) : List Text :=
  ((splitOutside (· = ',') 0 t).map trim).filter (!·.isEmpty)

def tokens (t : Text) : List Text :=
  (splitOutside isBlank 0 t).filter (!·.isEmpty)

end Flipbook.Css
