import Flipbook.Text.Blank
import Flipbook.Text.Digit

namespace Flipbook.CommandLine

open Text

inductive Flag
  | help
  | sheet
  | parallel
  | verbose
  deriving DecidableEq, Repr

inductive Key
  | outputDirectory
  | rate
  | frameCount
  | canvas
  | config
  deriving DecidableEq, Repr

inductive Switch
  | flag (flag : Flag)
  | key (key : Key)
  deriving DecidableEq, Repr

def longNames : List (Text × Switch) :=
  [("--help".toList, .flag .help), ("--output-dir".toList, .key .outputDirectory),
    ("--fps".toList, .key .rate), ("--frames".toList, .key .frameCount),
    ("--canvas-size".toList, .key .canvas), ("--sprite-sheet".toList, .flag .sheet),
    ("--parallel".toList, .flag .parallel), ("--config".toList, .key .config),
    ("--verbose".toList, .flag .verbose)]

def Key.name : Key → Text
  | outputDirectory => "--output-dir".toList
  | rate => "--fps".toList
  | frameCount => "--frames".toList
  | canvas => "--canvas-size".toList
  | config => "--config".toList

def shortFlag? (c : Char) : Option Flag :=
  if c = 'h' then some .help else if c = 'v' then some .verbose else none

inductive Word
  | plain (t : Text)
  | long (switch : Switch) (value : Option Text)
  | short (flag : Flag) (tail : Text)
  | unknown (t : Text)
  | separator
  deriving DecidableEq, Repr

namespace Word

/-- A dash and a number without exponent, a line feed at the end allowed. -/
def isNegativeNumber (t : Text) : Bool :=
  let t := if t.getLast? = some '\n' then t.dropLast else t
  match t with
  | '-' :: number =>
    match cutAt? '.' number with
    | none => !number.isEmpty && number.all isDigit
    | some (whole, fraction) => whole.all isDigit && !fraction.isEmpty && fraction.all isDigit
  | _ => false

def switchesFrom (beginning : Text) : List Switch :=
  (longNames.filter fun (name, _) => (after? beginning name).isSome).map (·.2)

def ofLong (t : Text) : Except Text Word :=
  let name := t.takeWhile (· ≠ '=')
  let value := after? ['='] (t.dropWhile (· ≠ '='))
  match longNames.lookup name with
  | some switch => return long switch value
  | none =>
    match switchesFrom name with
    | [switch] => return long switch value
    | [] => return if t.contains ' ' then plain t else unknown t
    | _ :: _ :: _ => throw t

/-- A word as it stands before any separator; an option of which too little is written is an error. -/
def ofText (t : Text) : Except Text Word :=
  match t with
  | '-' :: '-' :: _ => ofLong t
  | '-' :: c :: tail =>
    match shortFlag? c with
    | some flag => return short flag tail
    | none => return if isNegativeNumber t || t.contains ' ' then plain t else unknown t
  | _ => return plain t

def ofTexts : List Text → Except Text (List Word)
  | [] => return []
  | t :: rest => do
    if t = ['-', '-'] then return separator :: rest.map plain
    let word ← ofText t
    return word :: (← ofTexts rest)

end Word
end Flipbook.CommandLine
