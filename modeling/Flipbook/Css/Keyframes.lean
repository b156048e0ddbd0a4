import Flipbook.Css.Block
import Flipbook.Css.Comment
import Flipbook.Css.Declaration
import Flipbook.Css.Time
import Flipbook.Text.LowerCase
import Flipbook.Text.Word

namespace Flipbook.Css

open Text

structure Stop where
  offset : Float
  properties : Properties
  deriving Inhabited

/-- `from`, `to` or a percentage up to a hundred. -/
def offset? (t : Text) : Option Float :=
  let word := lowerCase (trim t)
  if word = "from".toList then some 0.0
  else if word = "to".toList then some 1.0
  else
    match takePlain? word with
    | some (percent, ['%']) =>
      let offset := percent.toFloat false / 100.0
      if 0.0 ≤ offset ∧ offset ≤ 1.0 then some offset else none
    | _ => none

def offsets (head : Text) : List Float := (splitBy (· = ',') head).filterMap offset?

def isStopHead (c : Char) : Bool :=
  isWord c || c = '%' || c = '.' || c = ',' || isBlank c

def placeStop (stop : Stop) : List Stop → List Stop
  | [] => [stop]
  | other :: rest =>
    if stop.offset ≤ other.offset then stop :: other :: rest else other :: placeStop stop rest

def sortStops (stops : List Stop) : List Stop := stops.foldr placeStop []

def Block.stops (block : Block) : List Stop :=
  (offsets block.head).map (⟨·, declarations block.body⟩)

def stops (body : Text) : List Stop :=
  sortStops ((blocks isStopHead body).flatMap Block.stops)

/-- The text up to the brace that closes `depth + 1` open ones, and what follows the brace. -/
def closeBrace? (depth : Nat) : Text → Option (Text × Text)
  | [] => none
  | '}' :: rest =>
    match depth with
    | 0 => some ([], rest)
    | depth + 1 => (closeBrace? depth rest).map fun (inside, after) => ('}' :: inside, after)
  | c :: rest =>
    (closeBrace? (if c = '{' then depth + 1 else depth) rest).map
      fun (inside, after) => (c :: inside, after)

structure KeyframesRule where
  name : Text
  body : Text
  deriving DecidableEq, Repr

/-- `@keyframes name {`, also with the prefix of a browser: the name, the characters read, the rest. -/
def keyframesHeader? (t : Text) : Option (Text × Text × Text) := do
  let afterAt ← after? ['@'] t
  let (vendor, afterVendor) :=
    match after? "-webkit-".toList afterAt with
    | some rest => ("-webkit-".toList, rest)
    | none =>
      match after? "-moz-".toList afterAt with
      | some rest => ("-moz-".toList, rest)
      | none => ([], afterAt)
  let afterWord ← after? "keyframes".toList afterVendor
  let gap := afterWord.takeWhile isBlank
  let afterGap := afterWord.dropWhile isBlank
  let name := afterGap.takeWhile isNameChar
  let afterName := afterGap.dropWhile isNameChar
  let space := afterName.takeWhile isBlank
  let rest ← after? ['{'] (afterName.dropWhile isBlank)
  if gap.isEmpty || name.isEmpty then none
  else some (name, '@' :: vendor ++ "keyframes".toList ++ gap ++ name ++ space ++ ['{'], rest)

/-- A rule reaches to the brace that closes it. One that is not closed reaches to the end of the text,
    where a brace is taken for the missing one. -/
def keyframesRule : Pattern KeyframesRule := fun t => do
  let (name, header, rest) ← keyframesHeader? t
  match closeBrace? 0 rest with
  | some (body, _) => some (⟨name, body⟩, header ++ body ++ ['}'])
  | none =>
    let body := if rest.getLast? = some '}' then rest.dropLast else rest
    some (⟨name, body⟩, header ++ rest)

/-- The stops under each name; the last rule of a name counts. -/
def keyframes (css : Text) : Table (List Stop) :=
  .ofList ((keyframesRule.findAll (stripComments css)).map fun rule => (rule.name, stops rule.body))

def removeKeyframes (css : Text) : Text := keyframesRule.erase css

end Flipbook.Css
