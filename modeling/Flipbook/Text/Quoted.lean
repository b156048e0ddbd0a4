import Flipbook.Text.Digit
import Flipbook.Text.Printable

namespace Flipbook.Text

def hexText (width n : Nat) : Text := padLeft '0' width (Nat.toDigits 16 n)

def codeText (c : Char) : Text :=
  let n := c.toNat
  if n < 0x100 then '\\' :: 'x' :: hexText 2 n
  else if n < 0x10000 then '\\' :: 'u' :: hexText 4 n
  else '\\' :: 'U' :: hexText 8 n

def quotedChar (isShown : Char → Bool) (quote c : Char) : Text :=
  if c = quote ∨ c = '\\' then ['\\', c]
  else if c = '\t' then ['\\', 't']
  else if c = '\n' then ['\\', 'n']
  else if c = '\r' then ['\\', 'r']
  else if isShown c then [c]
  else codeText c

def quotedBy (isShown : Char → Bool) (t : Text) : Text :=
  let quote := if t.contains '\'' && !t.contains '"' then '"' else '\''
  quote :: t.flatMap (quotedChar isShown quote) ++ [quote]

def quoted (t : Text) : Text := quotedBy isPrintable t

def quotedAscii (t : Text) : Text := quotedBy (fun c => ' ' ≤ c && c ≤ '~') t

end Flipbook.Text
