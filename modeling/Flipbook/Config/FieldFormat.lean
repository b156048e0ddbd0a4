import Flipbook.Config.PatternError
import Flipbook.Number.Binary64

namespace Flipbook

open Text

inductive FieldValue
  | text (t : Text)
  | number (n : Nat)
  /-- What else can be reached from a text or a number, by a handle. -/
  | object (handle : Nat)
  deriving DecidableEq, Repr

/-- The objects around texts and numbers: what their parts and items are, and what is written for them. -/
class Reflection where
  part : FieldValue → Text → Except Refusal FieldValue
  item : Nat → Text → Except Refusal FieldValue
  converted : Nat → Char → Except Refusal Text
  formatted : Nat → Text → Except Refusal Text

structure FieldFormat where
  fill : Char
  align : Char
  sign : Option Char
  plainZero : Bool
  alternate : Bool
  width : Option Nat
  separator : Option Char
  precision : Option Nat
  type : Char
  deriving DecidableEq, Repr

namespace FieldFormat

def isAlign (c : Char) : Bool := c = '<' || c = '>' || c = '^' || c = '='

def isSign (c : Char) : Bool := c = ' ' || c = '+' || c = '-'

def takeAlign (t : Text) : Option Char × Option Char × Text :=
  match t with
  | fill :: align :: rest =>
    if isAlign align then (some fill, some align, rest)
    else if isAlign fill then (none, some fill, align :: rest)
    else (none, none, t)
  | [align] => if isAlign align then (none, some align, []) else (none, none, t)
  | [] => (none, none, [])

def takeIf (p : Char → Bool) (t : Text) : Option Char × Text :=
  match t with
  | c :: rest => if p c then (some c, rest) else (none, t)
  | [] => (none, [])

def mostNumber : Nat := pow2 63 - 1

def takeNumber (t : Text) : Except PatternError (Option Nat × Text) :=
  match t.takeWhile isDigit with
  | [] => return (none, t)
  | digits =>
    if mostNumber < digitsValue digits then throw .tooManyDigits
    else return (some (digitsValue digits), t.dropWhile isDigit)

def takeSeparator (t : Text) : Except PatternError (Option Char × Text) := do
  let (comma, t) := takeIf (· = ',') t
  let (underscore, t) := takeIf (· = '_') t
  if comma.isSome && underscore.isSome then throw .bothSeparators
  if underscore.isSome && t.head? = some ',' then throw .bothSeparators
  return (comma.or underscore, t)

def takePrecision (t : Text) : Except PatternError (Option Nat × Text) := do
  match t with
  | '.' :: rest =>
    match ← takeNumber rest with
    | (none, _) => throw .noPrecision
    | found => return found
  | _ => return (none, t)

def allowsSeparator (separator type : Char) : Bool :=
  "defgEG%F".toList.contains type || (separator = '_' && "boxX".toList.contains type)

def ofText (kind : FieldKind) (whole : Text) : Except PatternError FieldFormat := do
  let usualAlign := if kind = .number then '>' else '<'
  let (fill, align, t) := takeAlign whole
  let (sign, t) := takeIf isSign t
  let (plainZero, t) := takeIf (· = 'z') t
  let (alternate, t) := takeIf (· = '#') t
  let (zero, t) := if fill.isNone then takeIf (· = '0') t else (none, t)
  let (width, t) ← takeNumber t
  let (separator, t) ← takeSeparator t
  let (precision, t) ← takePrecision t
  let type ← match t with
    | [] => pure (if kind = .number then 'd' else 's')
    | [type] => pure type
    | _ => throw (.surplusFormat whole kind)
  if let some separator := separator then
    if !allowsSeparator separator type then throw (.separatorFor separator type)
  return {
    fill := if zero.isSome then '0' else fill.getD ' '
    align := align.getD (if zero.isSome && kind = .number then '=' else usualAlign)
    sign, width, separator, precision, type
    plainZero := plainZero.isSome
    alternate := alternate.isSome }

def pad (format : FieldFormat) (lead body : Text) : Text :=
  let missing := format.width.getD 0 - (lead.length + body.length)
  let left := if format.align = '<' then 0
    else if format.align = '^' then missing / 2
    else missing
  let before := List.replicate left format.fill
  let after := List.replicate (missing - left) format.fill
  if format.align = '=' then lead ++ before ++ body else before ++ lead ++ body ++ after

def textField (format : FieldFormat) (t : Text) : Except PatternError Text := do
  if format.type ≠ 's' then throw (.unknownType format.type .text)
  if format.sign = some ' ' then throw (.notForText .space)
  if format.sign.isSome then throw (.notForText .sign)
  if format.plainZero then throw (.notForText .plainZero)
  if format.alternate then throw (.notForText .alternate)
  if format.align = '=' then throw (.notForText .padAfterSign)
  return format.pad [] (match format.precision with
    | some n => t.take n
    | none => t)

/-- Digits in groups from the right. Where zeros fill up to a width, they are grouped with the digits.
    `digits` are reversed, and so is the result. -/
def groupReversed (size : Nat) (separator : Char) : Nat → Nat → Text → Text
  | 0, _, digits => digits
  | fuel + 1, least, digits =>
    let length := min size (max 1 (max digits.length least))
    let group := digits.take length ++ List.replicate (length - digits.length) '0'
    if digits.length ≤ length ∧ least ≤ length then group
    else group ++ separator :: groupReversed size separator fuel (least - length - 1) (digits.drop length)

def numberField (format : FieldFormat) (lead digits tail : Text) : Text :=
  match format.separator with
  | none => format.pad lead (digits ++ tail)
  | some separator =>
    let size := if "boxX".toList.contains format.type then 4 else 3
    let least := if format.fill = '0' ∧ format.align = '=' then
      format.width.getD 0 - (lead.length + tail.length) else 0
    let grouped :=
      (groupReversed size separator (digits.length + least + 1) least digits.reverse).reverse
    format.pad lead (grouped ++ tail)

def signText (format : FieldFormat) : Text :=
  match format.sign with
  | some '+' => ['+']
  | some ' ' => [' ']
  | _ => []

def upper (t : Text) : Text := t.map Char.toUpper

/-- `n` to that many significant digits, a tie to the even one, and the power of ten of the first. -/
def significant (count n : Nat) : Text × Nat :=
  let length := (ofNat n).length
  if n = 0 then (List.replicate count '0', 0)
  else if length ≤ count then (ofNat n ++ List.replicate (count - length) '0', length - 1)
  else
    let rounded := ofNat (Binary64.divNearest n (pow10 (length - count)))
    if rounded.length = count then (rounded, length - 1) else (rounded.take count, length)

def decimals (format : FieldFormat) (t : Text) : Text :=
  if t.isEmpty && !format.alternate then [] else '.' :: t

def exponentTail (format : FieldFormat) (digits : Text) (exponent : Nat) : Text :=
  format.decimals digits ++ 'e' :: '+' :: padLeft '0' 2 (ofNat exponent)

def decimalParts (format : FieldFormat) (n : Nat) : Text × Text :=
  let precision := format.precision.getD 6
  match format.type.toLower with
  | 'e' =>
    let (digits, exponent) := significant (precision + 1) n
    (digits.take 1, format.exponentTail (digits.drop 1) exponent)
  | 'g' =>
    let precision := max 1 precision
    let (digits, exponent) := significant precision n
    let short (t : Text) : Text := if format.alternate then t else trimEndBy (· = '0') t
    if exponent < precision then
      (digits.take (exponent + 1), format.decimals (short (digits.drop (exponent + 1))))
    else (digits.take 1, format.exponentTail (short (digits.drop 1)) exponent)
  | '%' => (ofNat (100 * n), format.decimals (List.replicate precision '0') ++ ['%'])
  | _ => (ofNat n, format.decimals (List.replicate precision '0'))

/-- The number of a surrogate gives the null character, which no file name can hold either. -/
def characterField (format : FieldFormat) (n : Nat) : Except PatternError Text := do
  if format.sign.isSome then throw .signForCharacter
  if format.alternate then throw .alternateForCharacter
  if 0x110000 ≤ n then throw .noSuchCharacter
  return format.pad [] [Char.ofNat n]

def integerField (format : FieldFormat) (n : Nat) : Except PatternError Text := do
  if format.precision.isSome then throw .precisionForInteger
  if format.plainZero then throw .plainZeroForInteger
  let lead (mark : Char) : Text := format.signText ++ if format.alternate then ['0', mark] else []
  match format.type with
  | 'c' => format.characterField n
  | 'b' => return format.numberField (lead 'b') (Nat.toDigits 2 n) []
  | 'o' => return format.numberField (lead 'o') (Nat.toDigits 8 n) []
  | 'x' => return format.numberField (lead 'x') (Nat.toDigits 16 n) []
  | 'X' => return format.numberField (lead 'X') (upper (Nat.toDigits 16 n)) []
  | _ => return format.numberField format.signText (ofNat n) []

def isIntegerType (c : Char) : Bool := "bcdoxXn".toList.contains c

def isDecimalType (c : Char) : Bool := "eEfFgG%".toList.contains c

def decimalField (format : FieldFormat) (n : Nat) : Text :=
  let (digits, tail) := format.decimalParts n
  format.numberField format.signText digits (if format.type.isUpper then upper tail else tail)

def number (format : FieldFormat) (n : Nat) : Except PatternError Text :=
  if isIntegerType format.type then format.integerField n
  else if isDecimalType format.type then return format.decimalField n
  else throw (.unknownType format.type .number)

end FieldFormat

def FieldValue.formatted [Reflection] (value : FieldValue) (format : Text) : Except PatternError Text :=
  match value with
  | .text t => if format.isEmpty then return t else do (← FieldFormat.ofText .text format).textField t
  | .number n => if format.isEmpty then return ofNat n else do (← FieldFormat.ofText .number format).number n
  | .object handle => (Reflection.formatted handle format).mapError .refused

end Flipbook
