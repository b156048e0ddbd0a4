import Flipbook.Proofs.Text.Pieces
import Mathlib.Data.List.Basic

namespace Flipbook.Text

theorem mem_joinWith {sep : Text} {parts : List Text} {c : Char} (member : c ∈ joinWith sep parts) :
    (∃ part ∈ parts, c ∈ part) ∨ c ∈ sep := by
  induction parts with
  | nil => cases member
  | cons part parts ih =>
    cases parts with
    | nil => exact .inl ⟨part, by simp, member⟩
    | cons second parts =>
      rw [joinWith] at member
      · rcases List.mem_append.mp member with member | member
        · rcases List.mem_append.mp member with member | member
          · exact .inl ⟨part, by simp, member⟩
          · exact .inr member
        · refine (ih member).imp_left ?_
          rintro ⟨other, inside, stands⟩
          exact ⟨other, List.mem_cons_of_mem _ inside, stands⟩
      · intro none
        cases none

theorem mem_joinWith_of_mem {sep part : Text} {parts : List Text} (inside : part ∈ parts) {c : Char}
    (stands : c ∈ part) : c ∈ joinWith sep parts := by
  induction parts with
  | nil => cases inside
  | cons first parts ih =>
    cases parts with
    | nil =>
      rw [List.mem_singleton.mp inside] at stands
      exact stands
    | cons second parts =>
      show c ∈ first ++ sep ++ joinWith sep (second :: parts)
      rcases List.mem_cons.mp inside with rfl | inside
      · exact List.mem_append_left _ (List.mem_append_left _ stands)
      · exact List.mem_append_right _ (ih inside)

theorem joinWith_char (sep : Char) (first second : Text) (parts : List Text) :
    joinWith [sep] (first :: second :: parts) = first ++ sep :: joinWith [sep] (second :: parts) := by
  simp [joinWith]

theorem joinWith_ne_nil {sep : Text} {parts : List Text} (nonempty : parts ≠ []) (filled : ∀ part ∈ parts, part ≠ []) :
    joinWith sep parts ≠ [] := by
  obtain ⟨first, parts, rfl⟩ := List.exists_cons_of_ne_nil nonempty
  have start := filled first List.mem_cons_self
  cases parts with
  | nil => exact start
  | cons second parts => simp [joinWith, start]

theorem head?_joinWith {first : Text} (nonempty : first ≠ []) (sep : Text) (parts : List Text) :
    (joinWith sep (first :: parts)).head? = first.head? := by
  obtain ⟨c, rest, rfl⟩ := List.exists_cons_of_ne_nil nonempty
  cases parts <;> rfl

theorem mem_trim_of_solid {t : Text} {c : Char} (member : c ∈ t) (solid : isBlank c = false) : c ∈ trim t := by
  obtain ⟨before, after, shape, blankBefore, blankAfter, _⟩ := exists_trim t
  rw [shape, List.mem_append, List.mem_append] at member
  rcases member with (early | kept) | late
  · rw [blankBefore c early] at solid
    cases solid
  · exact kept
  · rw [blankAfter c late] at solid
    cases solid

theorem mem_of_mem_trim {t : Text} {c : Char} (member : c ∈ trim t) : c ∈ t := by
  obtain ⟨before, after, shape, _⟩ := exists_trim t
  rw [shape]
  exact List.mem_append_left _ (List.mem_append_right _ member)

theorem trimmed_of_solid {t : Text} (solid : ∀ c ∈ t, isBlank c = false) : Trimmed t :=
  ⟨fun c first => solid c (List.mem_of_mem_head? first), fun c last => solid c (List.mem_of_getLast? last)⟩

theorem trimmed_append {before between after : Text} (trimmed : Trimmed before) (nonempty : before ≠ [])
    (trimmed' : Trimmed after) (nonempty' : after ≠ []) : Trimmed (before ++ between ++ after) := by
  obtain ⟨d, rest, rfl⟩ := List.exists_cons_of_ne_nil nonempty
  constructor
  · intro c first
    exact trimmed.1 c first
  · intro c last
    rw [List.getLast?_append_of_ne_nil _ nonempty'] at last
    exact trimmed'.2 c last

theorem trimmed_joinWith {sep : Text} {parts : List Text} (filled : ∀ part ∈ parts, part ≠ [])
    (trimmed : ∀ part ∈ parts, Trimmed part) : Trimmed (joinWith sep parts) := by
  induction parts with
  | nil => exact ⟨halts_nil, fun c last => by cases last⟩
  | cons first parts ih =>
    cases parts with
    | nil => exact trimmed first List.mem_cons_self
    | cons second parts =>
      have later := ih (fun part inside => filled part (List.mem_cons_of_mem _ inside))
        (fun part inside => trimmed part (List.mem_cons_of_mem _ inside))
      refine trimmed_append (trimmed first List.mem_cons_self) (filled first List.mem_cons_self) later ?_
      exact joinWith_ne_nil (List.cons_ne_nil _ _) fun part inside => filled part (List.mem_cons_of_mem _ inside)

structure IsEntry (t : Text) : Prop where
  ne_nil : t ≠ []
  solid : ∀ c ∈ t, isBlank c = false
  noComma : ',' ∉ t

theorem isEntry_of_mem_entries {t entry : Text} (member : entry ∈ entries t) : IsEntry entry := by
  obtain ⟨inside, filled⟩ := List.mem_filter.mp member
  have free (c : Char) (stands : c ∈ entry) := not_sep_of_mem_splitBy inside stands
  simp only [Bool.or_eq_false_iff, decide_eq_false_iff_not] at free
  exact ⟨by simpa using filled, fun c stands => (free c stands).2, fun comma => (free ',' comma).1 rfl⟩

theorem mem_of_mem_entries {t entry : Text} (member : entry ∈ entries t) {c : Char} (stands : c ∈ entry) : c ∈ t :=
  mem_of_mem_splitBy (List.mem_filter.mp member).1 stands

theorem IsEntry.free {t : Text} (isEntry : IsEntry t) : ∀ c ∈ t, (decide (c = ',') || isBlank c) = false := by
  intro c stands
  have noComma : c ≠ ',' := by
    rintro rfl
    exact isEntry.noComma stands
  rw [decide_eq_false noComma, isEntry.solid c stands]
  rfl

theorem IsEntry.entries_eq {t : Text} (isEntry : IsEntry t) : entries t = [t] := by
  obtain ⟨c, tail, shape⟩ := List.exists_cons_of_ne_nil isEntry.ne_nil
  unfold entries wordsBy
  rw [splitBy_of_free isEntry.free, shape]
  rfl

theorem entries_comma (t rest : Text) : entries (t ++ ',' :: rest) = entries t ++ entries rest :=
  wordsBy_append_cons t rest (by decide)

theorem entries_around {before t after : Text} (blankBefore : ∀ c ∈ before, isBlank c)
    (blankAfter : ∀ c ∈ after, isBlank c) : entries (before ++ t ++ after) = entries t := by
  apply wordsBy_around
  · intro c member
    rw [blankBefore c member, Bool.or_true]
  · intro c member
    rw [blankAfter c member, Bool.or_true]

theorem entries_joinWith {parts : List Text} (isEntry : ∀ part ∈ parts, IsEntry part) :
    entries (joinWith ", ".toList parts) = parts := by
  induction parts with
  | nil => rfl
  | cons first parts ih =>
    have alone := (isEntry first List.mem_cons_self).entries_eq
    cases parts with
    | nil => exact alone
    | cons second parts =>
      have later := ih fun part inside => isEntry part (List.mem_cons_of_mem _ inside)
      have cut : joinWith ", ".toList (first :: second :: parts) =
          first ++ ',' :: ([' '] ++ joinWith ", ".toList (second :: parts) ++ []) := by
        simp [joinWith]
      rw [cut, entries_comma, entries_around (List.forall_mem_singleton.mpr (by decide)) (by simp), later, alone]
      rfl

end Flipbook.Text
