import Flipbook.Config.FieldFormat

namespace Flipbook

open Text

/-- A field: which value, how it is turned into text first, and in which format it is written. -/
structure PatternField where
  path : Text
  conversion : Option Char := none
  format : Text := []
  deriving DecidableEq, Repr

namespace Pattern

/-- A field name up to the character that ends it, and what follows. Between brackets nothing ends it. -/
def takeName (bracket : Bool) : Text → Except PatternError (Text × Char × Text)
  | [] => throw .unfinishedField
  | c :: rest =>
    if bracket then
      return (← takeName (c ≠ ']') rest).map (c :: ·) id
    else if c = '{' then throw .braceInName
    else if c = '}' ∨ c = ':' ∨ c = '!' then return ([], c, rest)
    else return (← takeName (c = '[') rest).map (c :: ·) id

/-- A format up to the brace that closes `depth + 1` open ones, and what follows. -/
def takeFormat (depth : Nat) : Text → Except PatternError (Text × Text)
  | [] => throw .unfinishedFormat
  | c :: rest =>
    if c = '}' then
      match depth with
      | 0 => return ([], rest)
      | depth + 1 => return (← takeFormat depth rest).map (c :: ·) id
    else return (← takeFormat (if c = '{' then depth + 1 else depth) rest).map (c :: ·) id

def takeField (t : Text) : Except PatternError (PatternField × Text) := do
  match ← takeName false t with
  | (path, '}', rest) => return ({ path }, rest)
  | (path, ':', rest) => return (← takeFormat 0 rest).map (fun format => { path, format }) id
  | (path, _, rest) =>
    match rest with
    | [] => throw .unfinishedConversion
    | c :: '}' :: rest => return ({ path, conversion := some c }, rest)
    | c :: ':' :: rest =>
      return (← takeFormat 0 rest).map (fun format => { path, conversion := some c, format }) id
    | [_] => throw .unfinishedFormat
    | _ => throw .noColonAfterConversion

def takeLiteral : Text → Except PatternError (Text × Option Text)
  | [] => return ([], none)
  | c :: rest =>
    if c = '{' ∨ c = '}' then
      match rest with
      | d :: after =>
        if d = c then return (← takeLiteral after).map (c :: ·) id
        else if c = '{' then return ([], some rest)
        else throw (.loneBrace c)
      | [] => throw (.loneBrace c)
    else return (← takeLiteral rest).map (c :: ·) id

def part [Reflection] (value : FieldValue) (name : Text) : Except PatternError FieldValue :=
  let other := (Reflection.part value name).mapError .refused
  match value with
  | .number n =>
    if name = "real".toList ∨ name = "numerator".toList then return .number n
    else if name = "imag".toList then return .number 0
    else if name = "denominator".toList then return .number 1
    else other
  | .text _ | .object _ => other

/-- An item of a value: a character of a text by its place. Digits in front count as a place at first. -/
def item [Reflection] (value : FieldValue) (key : Text) : Except PatternError FieldValue :=
  if FieldFormat.mostNumber < digitsValue (key.takeWhile isDigit) then throw .tooManyDigits
  else
    match value with
    | .text t =>
      if key.all isDigit then
        match t[digitsValue key]? with
        | some c => return .text [c]
        | none => throw .noCharacter
      else throw .noEntry
    | .number _ => throw .noEntry
    | .object handle => (Reflection.item handle key).mapError .refused

def follow [Reflection] (value : FieldValue) : Nat → Text → Except PatternError FieldValue
  | 0, _ => return value
  | _, [] => return value
  | fuel + 1, '.' :: rest => do
    let isInside (c : Char) := c ≠ '.' && c ≠ '['
    let name := rest.takeWhile isInside
    if name.isEmpty then throw .emptyAccess
    follow (← part value name) fuel (rest.dropWhile isInside)
  | fuel + 1, '[' :: rest => do
    let key := rest.takeWhile (· ≠ ']')
    if key.isEmpty then throw .emptyAccess
    follow (← item value key) fuel ((rest.dropWhile (· ≠ ']')).drop 1)
  | _, _ => throw .badAccess

structure Fields where
  name : Text
  index : Nat

def Fields.lookup (fields : Fields) (name : Text) : Except PatternError FieldValue :=
  if name = "name".toList then return .text fields.name
  else if name = "index".toList then return .number fields.index
  else if FieldFormat.mostNumber < digitsValue (name.takeWhile isDigit) then throw .tooManyDigits
  else if name.all isDigit then throw (.noPositional (digitsValue name))
  else throw (.unknownField name)

def Fields.value [Reflection] (fields : Fields) (path : Text) : Except PatternError FieldValue := do
  let isFirst (c : Char) := c ≠ '.' && c ≠ '['
  follow (← fields.lookup (path.takeWhile isFirst)) (path.length + 1) (path.dropWhile isFirst)

def convert [Reflection] (value : FieldValue) : Option Char → Except PatternError FieldValue
  | none => return value
  | some c =>
    if c ≠ 's' ∧ c ≠ 'r' ∧ c ≠ 'a' then throw (.unknownConversion c)
    else
      match value with
      | .text t => return .text (if c = 's' then t else if c = 'r' then quoted t else quotedAscii t)
      | .number n => return .text (ofNat n)
      | .object handle => return .text (← (Reflection.converted handle c).mapError .refused)

/-- The pattern's text for the fields. `depth` bounds how deep formats may be nested, and `fuel` is
    enough if it is more than the length of the text. -/
def expand [Reflection] (fields : Fields) (depth fuel : Nat) (t : Text) : Except PatternError Text :=
  match depth, fuel with
  | 0, _ => throw .tooDeep
  | _, 0 => return []
  | depth + 1, fuel + 1 => do
    let (literal, field) ← takeLiteral t
    match field with
    | none => return literal
    | some inside =>
      let (field, rest) ← takeField inside
      let value ← convert (← fields.value field.path) field.conversion
      let format ←
        if field.format.contains '{' then expand fields depth fuel field.format else pure field.format
      let text ← value.formatted format
      return literal ++ text ++ (← expand fields (depth + 1) fuel rest)

end Pattern

def filename [Reflection] (pattern : Text) (fields : Pattern.Fields) : Except PatternError Text :=
  Pattern.expand fields 2 (pattern.length + 1) pattern

end Flipbook
