import Flipbook.Text.Basic

namespace Flipbook.Css

structure Block where
  head : Text
  body : Text
  deriving DecidableEq, Repr

/-- The blocks of a text, where `head` is what could be a head so far and `inside` an open block. -/
def blocksFrom (isHead : Char → Bool) (head : Text) (inside : Option Block) : Text → List Block
  | [] => []
  | c :: rest =>
    if c = '{' then blocksFrom isHead [] (if head.isEmpty then none else some ⟨head, []⟩) rest
    else if c = '}' then
      match inside with
      | some block => block :: blocksFrom isHead [] none rest
      | none => blocksFrom isHead [] none rest
    else
      blocksFrom isHead (if isHead c then head ++ [c] else [])
        (inside.map fun block => { block with body := block.body ++ [c] }) rest

def blocks (isHead : Char → Bool) (t : Text) : List Block := blocksFrom isHead [] none t

end Flipbook.Css
