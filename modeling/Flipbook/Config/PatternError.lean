import Flipbook.Text.Quoted

namespace Flipbook

inductive FieldKind
  | text
  | number
  deriving DecidableEq, Repr

def FieldKind.name : FieldKind → Text
  | text => "str".toList
  | number => "int".toList

inductive TextRefusal
  | sign
  | space
  | plainZero
  | alternate
  | padAfterSign
  deriving DecidableEq, Repr

/-- What a value says to a request for one of its parts or for a text, where it has none. -/
structure Refusal where
  /-- Whether it is an error of the pattern's text, and not one of the value. -/
  isReported : Bool
  message : Text
  deriving DecidableEq, Repr

inductive PatternError
  | loneBrace (brace : Char)
  | braceInName
  | unfinishedField
  | unfinishedConversion
  | unfinishedFormat
  | noColonAfterConversion
  | unknownConversion (c : Char)
  | unknownField (name : Text)
  | noPositional (index : Nat)
  | emptyAccess
  | badAccess
  | noCharacter
  | tooDeep
  | tooManyDigits
  | noPrecision
  | surplusFormat (format : Text) (kind : FieldKind)
  | bothSeparators
  | separatorFor (separator type : Char)
  | unknownType (type : Char) (kind : FieldKind)
  | notForText (refusal : TextRefusal)
  | precisionForInteger
  | plainZeroForInteger
  | signForCharacter
  | alternateForCharacter
  | noSuchCharacter
  | noEntry
  | refused (refusal : Refusal)
  | notText
  deriving DecidableEq, Repr

namespace PatternError

def visible (least most : Nat) (c : Char) : Text :=
  if least ≤ c.toNat ∧ c.toNat ≤ most then [c] else '\\' :: 'x' :: Text.hexText 1 c.toNat

def message : PatternError → Text
  | loneBrace brace => "Single '".toList ++ brace :: "' encountered in format string".toList
  | braceInName => "unexpected '\x7b' in field name".toList
  | unfinishedField => "expected '\x7d' before end of string".toList
  | unfinishedConversion => "end of string while looking for conversion specifier".toList
  | unfinishedFormat => "unmatched '\x7b' in format spec".toList
  | noColonAfterConversion => "expected ':' after conversion specifier".toList
  | unknownConversion c => "Unknown conversion specifier ".toList ++ visible 33 126 c
  | unknownField name => Text.quoted name
  | noPositional index =>
    "Replacement index ".toList ++ Text.ofNat index ++ " out of range for positional args tuple".toList
  | emptyAccess => "Empty attribute in format string".toList
  | badAccess => "Only '.' or '[' may follow ']' in format field specifier".toList
  | noCharacter => "string index out of range".toList
  | tooDeep => "Max string recursion exceeded".toList
  | tooManyDigits => "Too many decimal digits in format string".toList
  | noPrecision => "Format specifier missing precision".toList
  | surplusFormat format kind =>
    "Invalid format specifier '".toList ++ format ++ "' for object of type '".toList ++ kind.name ++ ['\'']
  | bothSeparators => "Cannot specify both ',' and '_'.".toList
  | separatorFor separator type =>
    "Cannot specify '".toList ++ separator :: "' with '".toList ++ visible 33 127 type ++ "'.".toList
  | unknownType type kind =>
    "Unknown format code '".toList ++ visible 33 127 type ++ "' for object of type '".toList ++ kind.name
      ++ ['\'']
  | notForText .sign => "Sign not allowed in string format specifier".toList
  | notForText .space => "Space not allowed in string format specifier".toList
  | notForText .plainZero => "Negative zero coercion (z) not allowed in string format specifier".toList
  | notForText .alternate => "Alternate form (#) not allowed in string format specifier".toList
  | notForText .padAfterSign => "'=' alignment not allowed in string format specifier".toList
  | precisionForInteger => "Precision not allowed in integer format specifier".toList
  | plainZeroForInteger => "Negative zero coercion (z) not allowed in integer format specifier".toList
  | signForCharacter => "Sign not allowed with integer format specifier 'c'".toList
  | alternateForCharacter => "Alternate form (#) not allowed with integer format specifier 'c'".toList
  | noSuchCharacter => "%c arg not in range(0x110000)".toList
  | refused refusal => refusal.message
  | noEntry => "no such entry".toList
  | notText => "not a text".toList

def isReported : PatternError → Bool
  | noSuchCharacter | noEntry | notText => false
  | refused refusal => refusal.isReported
  | _ => true

end PatternError
end Flipbook
