import Flipbook.Text.Basic

namespace Flipbook.Text

def blankBounds : List Nat :=
  [0x9, 0xd, 0x1c, 0x20, 0x85, 0x85, 0xa0, 0xa0, 0x1680, 0x1680, 0x2000, 0x200a, 0x2028, 0x2029,
    0x202f, 0x202f, 0x205f, 0x205f, 0x3000, 0x3000]

def isBlank (c : Char) : Bool := within blankBounds c.toNat

def trimStart (t : Text) : Text := t.dropWhile isBlank

def trimEnd (t : Text) : Text := trimEndBy isBlank t

def trim (t : Text) : Text := trimEnd (trimStart t)

def words (t : Text) : List Text := wordsBy isBlank t

def entries (t : Text) : List Text := wordsBy (fun c => c = ',' || isBlank c) t

end Flipbook.Text
