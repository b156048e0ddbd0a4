import Flipbook.Text.Quoted

namespace Flipbook

inductive JsonValue
  | null
  | number (t : Text)
  | text (t : Text)
  | list (items : List JsonValue)
  | object (entries : List (String × JsonValue))

namespace JsonValue

open Text

def unitText (n : Nat) : Text := '\\' :: 'u' :: hexText 4 n

def charText (c : Char) : Text :=
  let n := c.toNat
  if c = '"' ∨ c = '\\' then ['\\', c]
  else if c = '\n' then ['\\', 'n']
  else if c = '\r' then ['\\', 'r']
  else if c = '\t' then ['\\', 't']
  else if n = 8 then ['\\', 'b']
  else if n = 12 then ['\\', 'f']
  else if 0x20 ≤ n ∧ n < 0x7f then [c]
  else if n < 0x10000 then unitText n
  else unitText (0xd800 + (n - 0x10000) / 0x400) ++ unitText (0xdc00 + (n - 0x10000) % 0x400)

def stringText (t : Text) : Text := '"' :: t.flatMap charText ++ ['"']

def lineStart (depth : Nat) : Text := '\n' :: List.replicate (2 * depth) ' '

def bracketed (opening closing : Char) (depth : Nat) (entries : List Text) : Text :=
  if entries.isEmpty then [opening, closing]
  else
    opening :: lineStart (depth + 1) ++ joinWith (',' :: lineStart (depth + 1)) entries
      ++ lineStart depth ++ [closing]

mutual

def indented (depth : Nat) : JsonValue → Text
  | null => "null".toList
  | number t => t
  | text t => stringText t
  | list items => bracketed '[' ']' depth (indentedItems (depth + 1) items)
  | object entries => bracketed '\x7b' '\x7d' depth (indentedEntries (depth + 1) entries)

def indentedItems (depth : Nat) : List JsonValue → List Text
  | [] => []
  | item :: rest => item.indented depth :: indentedItems depth rest

def indentedEntries (depth : Nat) : List (String × JsonValue) → List Text
  | [] => []
  | (name, value) :: rest =>
    (stringText name.toList ++ ':' :: ' ' :: value.indented depth) :: indentedEntries depth rest

end

end JsonValue
end Flipbook
