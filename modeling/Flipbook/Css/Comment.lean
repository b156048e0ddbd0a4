import Flipbook.Text.Scan

namespace Flipbook.Css

open Text

def dataMark : Pattern Unit := fun t =>
  match after? "<![CDATA[".toList t with
  | some _ => some ((), "<![CDATA[".toList)
  | none => (after? "]]>".toList t).map fun _ => ((), "]]>".toList)

/-- From `/*` to the next `*/`. A comment that does not end is none. -/
def comment : Pattern Unit := fun t => do
  let body ← after? ['/', '*'] t
  let (inside, _) ← cutAtText? ['*', '/'] body
  some ((), '/' :: '*' :: inside ++ ['*', '/'])

def stripComments (css : Text) : Text := comment.erase (dataMark.erase css)

end Flipbook.Css
