import Flipbook.Number.Decimal

namespace Flipbook

structure FunctionCall where
  name : Text
  arguments : List Text
  deriving DecidableEq, Repr

inductive PathToken
  | command (letter : Char)
  | number (lexeme : Text) (value : Numeral)
  deriving DecidableEq, Repr

def PathToken.lexeme : PathToken → Text
  | command letter => [letter]
  | number lexeme _ => lexeme

inductive ValueKind
  | color (red green blue : Nat)
  | functions (calls : List FunctionCall)
  | measure (amount : Numeral) (unit : Text)
  | number (amount : Numeral)
  | path (tokens : List PathToken)
  | other
  deriving DecidableEq, Repr

structure Value where
  text : Text
  kind : ValueKind
  deriving DecidableEq, Repr

end Flipbook
