import Flipbook.Config.Pattern
import Flipbook.Config.Settings
import Flipbook.Proofs.Files.Names

namespace Flipbook

open Text Pattern

section expand

variable [Reflection] {fields : Fields} {depth fuel : Nat} {t literal : Text}

theorem expand_literal (taken : takeLiteral t = .ok (literal, none)) :
    expand fields (depth + 1) (fuel + 1) t = .ok literal := by
  unfold expand
  rw [taken]
  rfl

theorem expand_field {inside rest text : Text} {field : PatternField} {value : FieldValue}
    (taken : takeLiteral t = .ok (literal, some inside)) (read : takeField inside = .ok (field, rest))
    (plain : field.conversion = none) (flat : field.format.contains '{' = false)
    (found : fields.value field.path = .ok value) (written : value.formatted field.format = .ok text) :
    expand fields (depth + 1) (fuel + 1) t =
      (expand fields (depth + 1) fuel rest).map fun tail => literal ++ text ++ tail := by
  have converted : convert value none = .ok value := rfl
  conv => lhs; unfold expand
  rw [taken]
  change (takeField inside >>= _) = _
  rw [read]
  change (fields.value field.path >>= _) = _
  rw [found]
  change (convert value field.conversion >>= _) = _
  rw [plain, converted]
  change (if field.format.contains '{' = true then _ else _) = _
  rw [flat, if_neg Bool.false_ne_true]
  change (value.formatted field.format >>= _) = _
  rw [written]
  change (expand fields (depth + 1) fuel rest >>= _) = _
  cases expand fields (depth + 1) fuel rest <;> rfl

end expand

def usualPattern : Text := "{name}_frame_{index:04d}.svg".toList

example : (Table.get? Configuration.usual "output".toList).bind (Table.get? · "filename_pattern".toList) =
    some (.text usualPattern) := rfl

def usualName (name : Text) (index : Nat) : Text :=
  name ++ "_frame_".toList ++ padLeft '0' 4 (ofNat index) ++ ".svg".toList

def fourDigits : FieldFormat where
  fill := '0'
  align := '='
  sign := none
  plainZero := false
  alternate := false
  width := some 4
  separator := none
  precision := none
  type := 'd'

theorem fourDigits_number (n : Nat) : fourDigits.number n = .ok (padLeft '0' 4 (ofNat n)) := by
  have digits : fourDigits.number n = .ok (fourDigits.pad [] (ofNat n ++ [])) := rfl
  rw [digits, List.append_nil]
  unfold FieldFormat.pad padLeft
  rw [List.length_nil, Nat.zero_add]
  rfl

theorem formatted_four [Reflection] (n : Nat) :
    (FieldValue.number n).formatted "04d".toList = .ok (padLeft '0' 4 (ofNat n)) := by
  have read : FieldFormat.ofText .number "04d".toList = .ok fourDigits := by decide +kernel
  have unfolded : (FieldValue.number n).formatted "04d".toList =
      FieldFormat.ofText .number "04d".toList >>= fun format => format.number n := rfl
  rw [unfolded, read, ok_bind]
  exact fourDigits_number n

theorem filename_usual [Reflection] (name : Text) (index : Nat) :
    filename usualPattern ⟨name, index⟩ = .ok (usualName name index) := by
  have length : usualPattern.length + 1 = 28 + 1 := by decide +kernel
  have nameTaken : takeLiteral usualPattern = .ok ([], some "name\x7d_frame_{index:04d}.svg".toList) := by
    decide +kernel
  have nameRead : takeField "name\x7d_frame_{index:04d}.svg".toList =
      .ok (⟨"name".toList, none, []⟩, "_frame_{index:04d}.svg".toList) := by decide +kernel
  have nameFound : (Fields.mk name index).value "name".toList = .ok (.text name) := rfl
  have nameWritten : (FieldValue.text name).formatted [] = .ok name := rfl
  have indexTaken : takeLiteral "_frame_{index:04d}.svg".toList =
      .ok ("_frame_".toList, some "index:04d\x7d.svg".toList) := by decide +kernel
  have indexRead : takeField "index:04d\x7d.svg".toList =
      .ok (⟨"index".toList, none, "04d".toList⟩, ".svg".toList) := by decide +kernel
  have indexFound : (Fields.mk name index).value "index".toList = .ok (.number index) := rfl
  have flat : "04d".toList.contains '{' = false := by decide +kernel
  have ending : takeLiteral ".svg".toList = .ok (".svg".toList, none) := by decide +kernel
  unfold filename
  rw [length, expand_field nameTaken nameRead rfl rfl nameFound nameWritten,
    expand_field indexTaken indexRead rfl flat indexFound (formatted_four index), expand_literal ending]
  unfold usualName
  simp only [Except.map, List.nil_append, List.append_assoc]

theorem ofDigitChars_padLeft (width n : Nat) : Nat.ofDigitChars 10 (padLeft '0' width (ofNat n)) 0 = n := by
  unfold padLeft ofNat
  rw [Nat.ofDigitChars_append, Nat.ofDigitChars_replicate_zero, Nat.mul_zero, Nat.ofDigitChars_ten_toDigits]

theorem usualName_inj {name : Text} {i j : Nat} (same : usualName name i = usualName name j) : i = j := by
  unfold usualName at same
  rw [List.append_cancel_right_eq, List.append_cancel_left_eq] at same
  rw [← ofDigitChars_padLeft 4 i, same, ofDigitChars_padLeft]

theorem usualName_ne_sheet (name : Text) (index : Nat) : usualName name index ≠ name ++ "_sprite.svg".toList := by
  intro same
  unfold usualName at same
  rw [List.append_assoc, List.append_assoc, List.append_cancel_left_eq] at same
  have letters := congrArg (fun t : Text => t[1]?) same
  cases letters

theorem isName_usualName {name : Text} (free : '/' ∉ name) (index : Nat) : Path.IsName (usualName name index) := by
  unfold usualName
  rw [List.append_assoc, List.append_assoc]
  apply Path.isName_append free
  · have digits : '/' ∉ padLeft '0' 4 (ofNat index) := by
      intro inside
      rcases List.mem_append.mp inside with zero | digit
      · cases List.eq_of_mem_replicate zero
      · exact absurd (Nat.isDigit_of_mem_toDigits (by decide) (by decide) digit) (by decide)
    intro inside
    rcases List.mem_append.mp inside with inside | inside
    · revert inside
      decide
    · rcases List.mem_append.mp inside with inside | inside
      · exact digits inside
      · revert inside
        decide
  · simp

end Flipbook
