import Flipbook.Text.Utf8

namespace Flipbook.Text

def base64Alphabet : Text := "ABCDEFGHIJKLMNOPQRSTUVWXYZabcdefghijklmnopqrstuvwxyz0123456789+/".toList

def sextet (n : Nat) : Char := base64Alphabet.getD (n % 64) 'A'

def base64 : Bytes → Text
  | [] => []
  | [a] => [sextet (a.toNat / 4), sextet (a.toNat * 16), '=', '=']
  | [a, b] =>
    [sextet (a.toNat / 4), sextet (a.toNat * 16 + b.toNat / 16), sextet (b.toNat * 4), '=']
  | a :: b :: c :: rest =>
    sextet (a.toNat / 4) :: sextet (a.toNat * 16 + b.toNat / 16) :: sextet (b.toNat * 4 + c.toNat / 64)
      :: sextet c.toNat :: base64 rest

end Flipbook.Text
