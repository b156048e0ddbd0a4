import Flipbook.Text.Call
import Flipbook.Text.Word
import Flipbook.Value.Basic

namespace Flipbook

open Text

def hexDigit? (c : Char) : Option Nat :=
  if '0' ≤ c && c ≤ '9' then some (c.toNat - '0'.toNat)
  else if 'a' ≤ c && c ≤ 'f' then some (c.toNat - 'a'.toNat + 10)
  else if 'A' ≤ c && c ≤ 'F' then some (c.toNat - 'A'.toNat + 10)
  else none

def color? (t : Text) : Option ValueKind :=
  match t with
  | '#' :: digits =>
    match digits.mapM hexDigit? with
    | some [r, g, b] | some [r, g, b, _] => some (.color (17 * r) (17 * g) (17 * b))
    | some [r, r', g, g', b, b'] | some [r, r', g, g', b, b', _, _] =>
      some (.color (16 * r + r') (16 * g + g') (16 * b + b'))
    | _ => none
  | _ => none

def functionCalls (t : Text) : List FunctionCall :=
  (Call.findAll isNameChar t).map fun call => ⟨call.name, entries (trim call.arguments)⟩

def units : List String :=
  ["px", "em", "rem", "%", "deg", "rad", "turn", "s", "ms", "vh", "vw", "vmin", "vmax", "ch", "ex", "cm",
    "mm", "in", "pt", "pc"]

def measure? (t : Text) : Option (Numeral × Text) :=
  match Numeral.read? (trim t) with
  | some reading =>
    if units.any (·.toList = reading.rest) then some (reading.value, reading.rest) else none
  | none => none

def isPathChar (c : Char) : Bool :=
  "MmLlHhVvCcSsQqTtAaZz.,eE+-".toList.contains c || isDigit c || isBlank c

def looksLikePath (t : Text) : Bool :=
  let t := trim t
  t.all isPathChar && t.any fun c => "MmLl".toList.contains c

def pathTokensAfter : Nat → Text → List PathToken
  | _, [] => []
  | skip + 1, _ :: rest => pathTokensAfter skip rest
  | 0, c :: rest =>
    if isAsciiLetter c then .command c :: pathTokensAfter 0 rest
    else
      match Numeral.read? (c :: rest) with
      | some reading => .number reading.lexeme reading.value :: pathTokensAfter (reading.lexeme.length - 1) rest
      | none => pathTokensAfter 0 rest

def pathTokens (t : Text) : List PathToken := pathTokensAfter 0 t

def classify (t : Text) : Value :=
  match color? (trim t) with
  | some kind => ⟨trim t, kind⟩
  | none =>
    match functionCalls t with
    | call :: calls => ⟨t, .functions (call :: calls)⟩
    | [] =>
      match measure? t with
      | some (amount, unit) => ⟨t, .measure amount unit⟩
      | none =>
        match Numeral.ofText? (trim t) with
        | some amount => ⟨t, .number amount⟩
        | none => if looksLikePath t then ⟨t, .path (pathTokens t)⟩ else ⟨t, .other⟩

end Flipbook
