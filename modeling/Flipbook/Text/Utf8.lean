import Flipbook.Text.Basic

namespace Flipbook.Text

abbrev Bytes := List UInt8

def encode (t : Text) : Bytes := t.flatMap String.utf8EncodeChar

def byteLength (t : Text) : Nat := (encode t).length

def isTail (b : UInt8) : Bool := 0x80 ≤ b && b < 0xc0

def tailBits (b : UInt8) : Nat := b.toNat % 64

def decode? : Bytes → Option Text
  | [] => some []
  | a :: rest =>
    if a < 0x80 then (decode? rest).map (Char.ofNat a.toNat :: ·)
    else
      match rest with
      | [] => none
      | b :: rest =>
        if 0xc2 ≤ a && a < 0xe0 && isTail b then
          (decode? rest).map (Char.ofNat (64 * (a.toNat % 32) + tailBits b) :: ·)
        else
          match rest with
          | [] => none
          | c :: rest =>
            if 0xe0 ≤ a && a < 0xf0 && isTail b && isTail c && !(a = 0xe0 && b < 0xa0)
                && !(a = 0xed && 0xa0 ≤ b) then
              (decode? rest).map
                (Char.ofNat (4096 * (a.toNat % 16) + 64 * tailBits b + tailBits c) :: ·)
            else
              match rest with
              | [] => none
              | d :: rest =>
                if 0xf0 ≤ a && a < 0xf5 && isTail b && isTail c && isTail d && !(a = 0xf0 && b < 0x90)
                    && !(a = 0xf4 && 0x90 ≤ b) then
                  (decode? rest).map (Char.ofNat
                    (262144 * (a.toNat % 8) + 4096 * tailBits b + 64 * tailBits c + tailBits d) :: ·)
                else none

def normalizeLines : Text → Text
  | '\r' :: '\n' :: rest => '\n' :: normalizeLines rest
  | '\r' :: rest => '\n' :: normalizeLines rest
  | c :: rest => c :: normalizeLines rest
  | [] => []

end Flipbook.Text
