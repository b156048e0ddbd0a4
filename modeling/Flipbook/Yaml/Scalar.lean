import Flipbook.Yaml.Node

namespace Flipbook.Yaml

open Text

def isNull (t : Text) : Bool := t.isEmpty || isOneOf ["~", "null", "Null", "NULL"] t

def flag? (t : Text) : Option Bool :=
  if isOneOf ["yes", "Yes", "YES", "true", "True", "TRUE", "on", "On", "ON"] t then some true
  else if isOneOf ["no", "No", "NO", "false", "False", "FALSE", "off", "Off", "OFF"] t then some false
  else none

def withoutUnderscores (t : Text) : Text := t.filter (· ≠ '_')

def valueIn (base : Nat) (t : Text) : Nat :=
  (withoutUnderscores t).foldl
    (fun n c => base * n + if c.isDigit then c.toNat - '0'.toNat else (asciiLower c).toNat - 'a'.toNat + 10)
    0

def isBaseDigits (isBaseDigit : Char → Bool) (t : Text) : Bool :=
  !t.isEmpty && t.all fun c => isBaseDigit c || c = '_'

def isPositiveNumber (t : Text) : Bool :=
  match t with
  | c :: rest => '1' ≤ c && c ≤ '9' && rest.all fun c => c.isDigit || c = '_'
  | [] => false

def isNumber (t : Text) : Bool :=
  match t with
  | c :: rest => c.isDigit && rest.all fun c => c.isDigit || c = '_'
  | [] => false

def isSixtieth (t : Text) : Bool :=
  match t with
  | [c] => c.isDigit
  | [c, d] => '0' ≤ c && c ≤ '5' && d.isDigit
  | _ => false

def sixtiethsValue (places : List Text) : Nat := places.foldl (fun n place => 60 * n + valueIn 10 place) 0

def magnitude? (t : Text) : Option Nat :=
  match t with
  | ['0'] => some 0
  | '0' :: 'b' :: digits =>
    if isBaseDigits (fun c => c = '0' || c = '1') digits then some (valueIn 2 digits) else none
  | '0' :: 'x' :: digits =>
    if isBaseDigits (fun c => c.isDigit || ('a' ≤ c && c ≤ 'f') || ('A' ≤ c && c ≤ 'F')) digits then
      some (valueIn 16 digits) else none
  | '0' :: digits => if isBaseDigits (fun c => '0' ≤ c && c ≤ '7') digits then some (valueIn 8 digits) else none
  | _ =>
    match splitBy (· = ':') t with
    | first :: places =>
      if isPositiveNumber first && places.all isSixtieth then some (sixtiethsValue (first :: places)) else none
    | [] => none

def whole? (t : Text) : Option Int :=
  let (sign, digits) := takeSign t
  (magnitude? digits).map (Binary64.signed (isNegative sign))

def decimal? (negative : Bool) (t : Text) : Option Float := do
  let isPart (c : Char) := c.isDigit || c = '_'
  let whole := t.takeWhile isPart
  let rest ← after? ['.'] (t.dropWhile isPart)
  let fraction := rest.takeWhile isPart
  let power := rest.dropWhile isPart
  let isStart := if whole.isEmpty then isNumber fraction else isNumber whole
  let hasPower := match power with
    | [] => true
    | e :: sign :: digits =>
      (e = 'e' || e = 'E') && (sign = '+' || sign = '-') && !digits.isEmpty && digits.all Char.isDigit
    | _ => false
  if !isStart || !hasPower then none
  else
    let value ← Numeral.ofText? (withoutUnderscores t)
    some ({ value with negative }).toFloat

def sixtieths? (negative : Bool) (t : Text) : Option Float := do
  let (whole, fraction) ← cutAt? '.' t
  match splitBy (· = ':') whole with
  | first :: place :: places =>
    if isNumber first && (place :: places).all isSixtieth
        && fraction.all (fun c => c.isDigit || c = '_') then
      let last := (place :: places).getLast?.getD []
      let high := sixtiethsValue (first :: (place :: places).dropLast)
      let low ← Numeral.ofText? (withoutUnderscores (last ++ '.' :: fraction))
      let size := low.toFloat + (60 * high).toFloat
      some (if negative then -size else size)
    else none
  | _ => none

def binary? (t : Text) : Option Float :=
  let (sign, number) := takeSign t
  let negative := isNegative sign
  if isOneOf [".inf", ".Inf", ".INF"] number then some (Binary64.infinity negative)
  else if isOneOf [".nan", ".NaN", ".NAN"] t then some Binary64.nan
  else if number.head? = some '.' && !sign.isEmpty then none
  else (decimal? negative number).or (sixtieths? negative number)

def daysIn (year month : Nat) : Nat :=
  if month = 2 then if year % 4 = 0 ∧ (year % 100 ≠ 0 ∨ year % 400 = 0) then 29 else 28
  else if month = 4 ∨ month = 6 ∨ month = 9 ∨ month = 11 then 30
  else 31

def isDated (t : Text) : Bool :=
  let (date, time) := t.span fun c => c.isDigit || c = '-'
  match splitBy (· = '-') date with
  | [year, month, day] =>
    let isShort (digits : Text) := digits.length = 1 || digits.length = 2
    let hour := (time.dropWhile fun c => c = 'T' || c = 't' || c = ' ' || c = '\t').takeWhile Char.isDigit
    year.length = 4 && (month.length = 2 && day.length = 2 && time.isEmpty
      || isShort month && isShort day && !time.isEmpty && isShort hour)
  | _ => false

def day? (t : Text) : Option Node :=
  match splitBy (· = '-') t with
  | [year, month, day] =>
    let year := valueIn 10 year
    let month := valueIn 10 month
    let day := valueIn 10 day
    if t.length ≠ 10 then none
    else if 1 ≤ year ∧ 1 ≤ month ∧ month ≤ 12 ∧ 1 ≤ day ∧ day ≤ daysIn year month then
      some (.scalar (.other true (some ("datetime.date(".toList
        ++ joinWith ", ".toList [ofNat year, ofNat month, ofNat day] ++ [')']))))
    else some .stray
  | _ => none

def isTooLong (digits : Text) : Bool :=
  digits.head? ≠ some '0'
    && (splitBy (· = ':') digits).any fun part => mostDigits < (withoutUnderscores part).length

def resolve? (t : Text) : Option Node :=
  if isNull t then some (.scalar .null)
  else if isOneOf ["<<", "="] t then none
  else if isDated t then day? t
  else
    match flag? t with
    | some value => some (.scalar (.flag value))
    | none =>
      match whole? t with
      | some n => some (if isTooLong (takeSign t).2 then .stray else .scalar (.whole n))
      | none =>
        match binary? t with
        | some x => some (.scalar (.binary x))
        | none => some (.scalar (.text t))

def keyName? : Setting → Option SettingName
  | .null => some (.other "None".toList)
  | .flag value => some (.other (if value then "True".toList else "False".toList))
  | .whole n => some (.whole n)
  | .binary x => some (.other (Binary64.plainText x))
  | .text t => some (.text t)
  | .other _ shown? => shown?.map .other
  | .pair _ _ | .list _ | .mapping _ => none

end Flipbook.Yaml
