import Flipbook.Config.FieldFormat

namespace Flipbook.Types

def noPart : Refusal := ⟨false, "no such attribute".toList⟩

def name (handle : Nat) : Text := if handle = 0 then "str".toList else "int".toList

def shown (handle : Nat) : Text := "<class '".toList ++ name handle ++ "'>".toList

/-- Texts and numbers have a type, and types have a name. -/
instance : Reflection where
  part value part :=
    match value with
    | .text _ => if part = "__class__".toList then .ok (.object 0) else .error noPart
    | .number _ => if part = "__class__".toList then .ok (.object 1) else .error noPart
    | .object handle =>
      if part = "__name__".toList ∨ part = "__qualname__".toList then .ok (.text (name handle)) else .error noPart
  item _ _ := .error ⟨false, "no items".toList⟩
  converted handle _ := .ok (shown handle)
  formatted handle format := if format.isEmpty then .ok (shown handle) else .error ⟨false, "no format".toList⟩

end Flipbook.Types
