import Flipbook.Text.Word
import Flipbook.Text.Blank
import Mathlib.Data.List.TakeWhile

namespace Flipbook.Text

/-- The text does not go on with a character of the class. -/
def Halts (p : Char → Bool) (t : Text) : Prop := ∀ c ∈ t.head?, p c = false

section Runs

variable {p : Char → Bool} {run rest : Text}

theorem halts_nil : Halts p [] := by simp [Halts]

theorem halts_cons {c : Char} : Halts p (c :: rest) ↔ p c = false := by simp [Halts]

theorem halts_dropWhile (t : Text) : Halts p (t.dropWhile p) := by
  intro c first
  have failed := List.head?_dropWhile_not p t
  rw [Option.mem_def.mp first] at failed
  simpa using failed

theorem takeWhile_of_halts (halts : Halts p rest) : rest.takeWhile p = [] := by
  cases rest with
  | nil => rfl
  | cons c rest => simp [halts_cons.mp halts]

theorem dropWhile_of_halts (halts : Halts p rest) : rest.dropWhile p = rest := by
  cases rest with
  | nil => rfl
  | cons c rest => simp [halts_cons.mp halts]

theorem takeWhile_run (inside : ∀ c ∈ run, p c) (halts : Halts p rest) :
    (run ++ rest).takeWhile p = run := by
  rw [List.takeWhile_append_of_pos inside, takeWhile_of_halts halts, List.append_nil]

theorem dropWhile_run (inside : ∀ c ∈ run, p c) (halts : Halts p rest) :
    (run ++ rest).dropWhile p = rest := by
  rw [List.dropWhile_append_of_pos inside, dropWhile_of_halts halts]

end Runs

theorem cutAt?_eq_some {c : Char} {t before after : Text} :
    cutAt? c t = some (before, after) ↔ t = before ++ c :: after ∧ c ∉ before := by
  induction t generalizing before with
  | nil => simp [cutAt?]
  | cons d rest ih =>
    by_cases same : d = c
    · subst same
      simp only [cutAt?, ↓reduceIte, Option.some.injEq, Prod.mk.injEq]
      constructor
      · rintro ⟨rfl, rfl⟩
        simp
      · rintro ⟨cut, absent⟩
        cases before with
        | nil => simpa using cut
        | cons e before =>
          have : d = e := (List.cons.inj cut).1
          simp [this] at absent
    · simp only [cutAt?, if_neg same, Option.map_eq_some_iff, Prod.mk.injEq]
      constructor
      · rintro ⟨⟨before', after'⟩, found, rfl, rfl⟩
        obtain ⟨rfl, absent⟩ := ih.mp found
        exact ⟨rfl, by simp [Ne.symm same, absent]⟩
      · rintro ⟨cut, absent⟩
        cases before with
        | nil => exact absurd (List.cons.inj cut).1 same
        | cons e before =>
          obtain ⟨rfl, tail⟩ := List.cons.inj cut
          exact ⟨(before, after), ih.mpr ⟨tail, fun h => absent (by simp [h])⟩, rfl, rfl⟩

theorem after?_eq_none {lead t : Text} : after? lead t = none ↔ ¬ lead <+: t := by
  constructor
  · rintro missing ⟨rest, cut⟩
    have found := after?_eq_some.mpr cut.symm
    rw [missing] at found
    cases found
  · intro notPrefix
    cases found : after? lead t with
    | none => rfl
    | some rest => exact absurd ⟨rest, (after?_eq_some.mp found).symm⟩ notPrefix

theorem after?_append (lead rest : Text) : after? lead (lead ++ rest) = some rest :=
  after?_eq_some.mpr rfl

theorem cutAtText?_sound {mark t before after : Text} (cut : cutAtText? mark t = some (before, after)) :
    t = before ++ mark ++ after := by
  induction t generalizing before with
  | nil =>
    simp only [cutAtText?, List.isEmpty_iff] at cut
    split at cut
    · rename_i empty
      cases cut
      simp [empty]
    · cases cut
  | cons c rest ih =>
    simp only [cutAtText?] at cut
    split at cut
    · rename_i found
      cases cut
      exact after?_eq_some.mp found
    · obtain ⟨⟨before', after'⟩, found, pair⟩ := Option.map_eq_some_iff.mp cut
      cases pair
      rw [ih found]
      rfl

theorem cutAtText?_mark (mark other : Text) : cutAtText? mark (mark ++ other) = some ([], other) := by
  cases whole : mark ++ other with
  | nil =>
    obtain ⟨rfl, rfl⟩ := List.append_eq_nil_iff.mp whole
    rfl
  | cons c rest =>
    have found : after? mark (c :: rest) = some other := after?_eq_some.mpr whole.symm
    simp only [cutAtText?, found]

theorem cutAtText?_append {mark t before after : Text} (cut : cutAtText? mark t = some (before, after))
    (other : Text) : cutAtText? mark (before ++ mark ++ other) = some (before, other) := by
  induction t generalizing before with
  | nil =>
    simp only [cutAtText?, List.isEmpty_iff] at cut
    split at cut
    · cases cut
      exact cutAtText?_mark mark other
    · cases cut
  | cons c rest ih =>
    simp only [cutAtText?] at cut
    split at cut
    · cases cut
      exact cutAtText?_mark mark other
    · rename_i missing
      obtain ⟨⟨before', after'⟩, found, pair⟩ := Option.map_eq_some_iff.mp cut
      cases pair
      -- Whether the mark stands at `c` is settled by the characters up to the end of the mark.
      have absent : after? mark (c :: (before' ++ mark ++ other)) = none := by
        rw [after?_eq_none]
        intro early
        refine after?_eq_none.mp missing ?_
        have inside : mark <+: c :: (before' ++ mark) := by
          refine List.prefix_of_prefix_length_le early ⟨other, by simp⟩ ?_
          simp only [List.length_cons, List.length_append]
          omega
        rw [cutAtText?_sound found]
        exact inside.trans ⟨after', by simp⟩
      simp only [List.cons_append, cutAtText?, absent, ih found, Option.map_some]

def blanks : List Nat :=
  [0x9, 0xa, 0xb, 0xc, 0xd, 0x1c, 0x1d, 0x1e, 0x1f, 0x20, 0x85, 0xa0, 0x1680, 0x2000, 0x2001, 0x2002,
    0x2003, 0x2004, 0x2005, 0x2006, 0x2007, 0x2008, 0x2009, 0x200a, 0x2028, 0x2029, 0x202f, 0x205f, 0x3000]

def numbersWithin : List Nat → List Nat
  | first :: last :: rest => List.range' first (last + 1 - first) ++ numbersWithin rest
  | _ => []

theorem mem_numbersWithin {bounds : List Nat} {n : Nat} (inside : within bounds n) : n ∈ numbersWithin bounds := by
  fun_induction numbersWithin bounds with
  | case1 first last rest ih =>
    simp only [within, Bool.and_eq_true, Bool.or_eq_true, decide_eq_true_eq] at inside
    obtain ⟨low, high | later⟩ := inside
    · exact List.mem_append_left _ (List.mem_range'_1.mpr ⟨low, by omega⟩)
    · exact List.mem_append_right _ (ih later)
  | case2 bounds short =>
    unfold within at inside
    split at inside
    · exact absurd rfl (short _ _ _)
    · cases inside

theorem mem_blanks_of_isBlank {c : Char} (blank : isBlank c) : c.toNat ∈ blanks := by
  have blanks_eq : numbersWithin blankBounds = blanks := rfl
  rw [← blanks_eq]
  exact mem_numbersWithin blank

theorem not_of_isBlank {p : Char → Bool} (fails : ∀ n ∈ blanks, p (Char.ofNat n) = false) {c : Char}
    (blank : isBlank c) : p c = false := by
  have same : Char.ofNat c.toNat = c := Char.ofNat_toNat c
  rw [← same]
  exact fails _ (mem_blanks_of_isBlank blank)

theorem isBlank_eq_false_of {p : Char → Bool} (fails : ∀ n ∈ blanks, p (Char.ofNat n) = false) {c : Char}
    (holds : p c) : isBlank c = false := by
  by_contra blank
  rw [not_of_isBlank fails (by simpa using blank)] at holds
  cases holds

theorem isBlank_of_isAsciiLetter {c : Char} (letter : isAsciiLetter c) : isBlank c = false :=
  isBlank_eq_false_of (by decide +kernel) letter

theorem isNameChar_of_isBlank {c : Char} (blank : isBlank c) : isNameChar c = false :=
  not_of_isBlank (by decide +kernel) blank

theorem isBlank_of_isNameChar {c : Char} (nameChar : isNameChar c) : isBlank c = false := by
  by_contra blank
  rw [isNameChar_of_isBlank (by simpa using blank)] at nameChar
  cases nameChar

end Flipbook.Text
