import Flipbook.Table
import Flipbook.Text.Blank

namespace Flipbook.Css

open Text

abbrev Properties := Table Text

def declaration? (t : Text) : Option (Text × Text) := do
  let (name, value) ← cutAt? ':' t
  let name := trim name
  if name.isEmpty then none else some (name, trim value)

def declarations (t : Text) : Properties :=
  .ofList ((splitBy (· = ';') t).filterMap declaration?)

end Flipbook.Css
