import Flipbook.Css.Keyframes
import Flipbook.Proofs.Css.Printed

namespace Flipbook.Css

open Text

def vendors : List Text := [[], "-webkit-".toList, "-moz-".toList]

/-- The text of a header for the keyframes of this name, up to its brace. -/
inductive HeaderText (name : Text) : Text → Prop
  | mk {vendor gap space : Text} (isVendor : vendor ∈ vendors) (apart : gap ≠ []) (blankGap : ∀ c ∈ gap, isBlank c)
      (nonempty : name ≠ []) (isName : ∀ c ∈ name, isNameChar c) (blankSpace : ∀ c ∈ space, isBlank c) :
      HeaderText name ('@' :: vendor ++ "keyframes".toList ++ gap ++ name ++ space ++ ['{'])

theorem HeaderText.shape {name header : Text} (text : HeaderText name header) :
    ∃ lead, header = '@' :: lead ++ ['{'] ∧ ∀ c ∈ lead, c ≠ '@' ∧ c ≠ '{' ∧ c ≠ '}' ∧ c ≠ ';' := by
  obtain ⟨isVendor, apart, blankGap, nonempty, isName, blankSpace⟩ := text
  rename_i vendor gap space
  refine ⟨vendor ++ "keyframes".toList ++ gap ++ name ++ space, by simp, fun c member => ?_⟩
  have ofBlank (blank : isBlank c) : c ≠ '@' ∧ c ≠ '{' ∧ c ≠ '}' ∧ c ≠ ';' :=
    ⟨ne_of_isBlank blank (by decide), ne_of_isBlank blank (by decide), ne_of_isBlank blank (by decide),
      ne_of_isBlank blank (by decide)⟩
  have ofName (inside : isNameChar c) {other : Char} (noName : isNameChar other = false) : c ≠ other := by
    rintro rfl
    rw [inside] at noName
    cases noName
  simp only [List.mem_append] at member
  rcases member with (((inVendor | inWord) | inGap) | inName) | inSpace
  · have known : vendors.all fun vendor => vendor.all fun c => c ≠ '@' ∧ c ≠ '{' ∧ c ≠ '}' ∧ c ≠ ';' := by decide
    exact of_decide_eq_true (List.all_eq_true.mp (List.all_eq_true.mp known vendor isVendor) c inVendor)
  · have known : "keyframes".toList.all fun c => c ≠ '@' ∧ c ≠ '{' ∧ c ≠ '}' ∧ c ≠ ';' := by decide
    exact of_decide_eq_true (List.all_eq_true.mp known c inWord)
  · exact ofBlank (blankGap c inGap)
  · have inside := isName c inName
    exact ⟨ofName inside (by decide), ofName inside (by decide), ofName inside (by decide), ofName inside (by decide)⟩
  · exact ofBlank (blankSpace c inSpace)

def bareHeader? (vendor t : Text) : Option (Text × Text × Text) := do
  let afterWord ← after? "keyframes".toList t
  let afterGap := afterWord.dropWhile isBlank
  let name := afterGap.takeWhile isNameChar
  let afterName := afterGap.dropWhile isNameChar
  let rest ← after? ['{'] (afterName.dropWhile isBlank)
  if (afterWord.takeWhile isBlank).isEmpty || name.isEmpty then none
  else some (name, '@' :: vendor ++ "keyframes".toList ++ afterWord.takeWhile isBlank ++ name ++
    afterName.takeWhile isBlank ++ ['{'], rest)

theorem keyframesHeader?_eq (t : Text) :
    keyframesHeader? t = (after? ['@'] t).bind fun afterAt =>
      match after? "-webkit-".toList afterAt, after? "-moz-".toList afterAt with
      | some rest, _ => bareHeader? "-webkit-".toList rest
      | none, some rest => bareHeader? "-moz-".toList rest
      | none, none => bareHeader? [] afterAt := by
  unfold keyframesHeader?
  cases after? ['@'] t with
  | none => rfl
  | some afterAt =>
    simp only [Option.bind_eq_bind, Option.bind_some]
    cases after? "-webkit-".toList afterAt with
    | some rest => rfl
    | none => cases after? "-moz-".toList afterAt <;> rfl

theorem bareHeader?_eq_some {vendor t name header rest : Text} :
    bareHeader? vendor t = some (name, header, rest) ↔ ∃ gap space, gap ≠ [] ∧ (∀ c ∈ gap, isBlank c) ∧ name ≠ [] ∧
      (∀ c ∈ name, isNameChar c) ∧ (∀ c ∈ space, isBlank c) ∧
        t = "keyframes".toList ++ (gap ++ (name ++ (space ++ '{' :: rest))) ∧
          header = '@' :: vendor ++ "keyframes".toList ++ gap ++ name ++ space ++ ['{'] := by
  constructor
  · intro read
    obtain ⟨afterWord, word, read⟩ := Option.bind_eq_some_iff.mp read
    obtain ⟨body, brace, read⟩ := Option.bind_eq_some_iff.mp read
    split at read
    · cases read
    · rename_i filled
      simp only [Bool.or_eq_true, List.isEmpty_iff, not_or] at filled
      cases read
      refine ⟨_, _, filled.1, fun c => List.mem_takeWhile_imp, filled.2, fun c => List.mem_takeWhile_imp,
        fun c => List.mem_takeWhile_imp, ?_, rfl⟩
      rw [after?_eq_some.mp word, ← List.singleton_append, ← after?_eq_some.mp brace,
        List.takeWhile_append_dropWhile, List.takeWhile_append_dropWhile, List.takeWhile_append_dropWhile]
  · rintro ⟨gap, space, apart, blankGap, nonempty, isName, blankSpace, rfl, rfl⟩
    have nameFirst : Halts isBlank (name ++ (space ++ '{' :: rest)) := by
      obtain ⟨d, tail, rfl⟩ := List.exists_cons_of_ne_nil nonempty
      exact halts_cons.mpr (isBlank_of_isNameChar (isName d List.mem_cons_self))
    have nameEnds : Halts isNameChar (space ++ '{' :: rest) := by
      cases space with
      | nil => exact halts_cons.mpr (by decide)
      | cons d tail => exact halts_cons.mpr (isNameChar_of_isBlank (blankSpace d List.mem_cons_self))
    have brace : Halts isBlank ('{' :: rest) := halts_cons.mpr (by decide)
    have opened : after? ['{'] ('{' :: rest) = some rest := rfl
    unfold bareHeader?
    simp only [after?_append, Option.bind_eq_bind, Option.bind_some, takeWhile_run blankGap nameFirst,
      dropWhile_run blankGap nameFirst, takeWhile_run isName nameEnds, dropWhile_run isName nameEnds,
      takeWhile_run blankSpace brace, dropWhile_run blankSpace brace, opened]
    simp [apart, nonempty]

theorem keyframesHeader?_eq_some {t name header rest : Text} :
    keyframesHeader? t = some (name, header, rest) ↔ t = header ++ rest ∧ HeaderText name header := by
  rw [keyframesHeader?_eq]
  constructor
  · intro read
    obtain ⟨afterAt, start, read⟩ := Option.bind_eq_some_iff.mp read
    -- whichever browser's prefix was read, the header without it stands behind
    have written {vendor t : Text} (isVendor : vendor ∈ vendors) (shape : afterAt = vendor ++ t)
        (read : bareHeader? vendor t = some (name, header, rest)) :
        afterAt = header.tail ++ rest ∧ HeaderText name header := by
      obtain ⟨gap, space, apart, blankGap, nonempty, isName, blankSpace, rfl, rfl⟩ := bareHeader?_eq_some.mp read
      refine ⟨?_, .mk isVendor apart blankGap nonempty isName blankSpace⟩
      rw [shape]
      simp
    obtain ⟨cut, text⟩ : afterAt = header.tail ++ rest ∧ HeaderText name header := by
      split at read
      · rename_i webkit
        exact written (by simp [vendors]) (after?_eq_some.mp webkit) read
      · rename_i moz
        exact written (by simp [vendors]) (after?_eq_some.mp moz) read
      · exact written (List.mem_cons_self : [] ∈ vendors) rfl read
    refine ⟨?_, text⟩
    rw [after?_eq_some.mp start, cut]
    cases text
    rfl
  · rintro ⟨rfl, ⟨isVendor, apart, blankGap, nonempty, isName, blankSpace⟩⟩
    rename_i vendor gap space
    have bare : bareHeader? vendor ("keyframes".toList ++ (gap ++ (name ++ (space ++ '{' :: rest)))) =
        some (name, '@' :: vendor ++ "keyframes".toList ++ gap ++ name ++ space ++ ['{'], rest) :=
      bareHeader?_eq_some.mpr ⟨gap, space, apart, blankGap, nonempty, isName, blankSpace, rfl, rfl⟩
    have start : after? ['@'] ('@' :: vendor ++ "keyframes".toList ++ gap ++ name ++ space ++ ['{'] ++ rest) =
        some (vendor ++ ("keyframes".toList ++ (gap ++ (name ++ (space ++ '{' :: rest))))) := by
      rw [after?_eq_some]
      simp
    rw [start, Option.bind_some]
    simp only [vendors, List.mem_cons, List.not_mem_nil, or_false] at isVendor
    rcases isVendor with rfl | rfl | rfl
    · exact bare
    · exact bare
    · exact bare

end Flipbook.Css
