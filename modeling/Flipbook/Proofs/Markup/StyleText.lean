import Flipbook.Markup.StyleElement
import Flipbook.Proofs.Text.Runs
import Mathlib.Data.List.Forall2

namespace Flipbook.Markup

open Text

def Cased (mark t : Text) : Prop := List.Forall₂ (fun letter c => isCaseOf letter c) mark t

theorem takeCased?_eq_some {mark t taken rest : Text} :
    takeCased? mark t = some (taken, rest) ↔ t = taken ++ rest ∧ Cased mark taken := by
  induction mark generalizing t taken with
  | nil =>
    simp only [takeCased?, Option.some.injEq, Prod.mk.injEq]
    constructor
    · rintro ⟨rfl, rfl⟩
      exact ⟨rfl, .nil⟩
    · rintro ⟨rfl, none⟩
      cases none
      exact ⟨rfl, rfl⟩
  | cons letter mark ih =>
    cases t with
    | nil =>
      simp only [takeCased?]
      constructor
      · nofun
      · rintro ⟨whole, cased⟩
        cases cased
        cases whole
    | cons c t =>
      rw [takeCased?]
      constructor
      · intro found
        split at found
        · rename_i here
          obtain ⟨⟨taken', rest'⟩, later, same⟩ := Option.map_eq_some_iff.mp found
          cases same
          obtain ⟨rfl, cased⟩ := ih.mp later
          exact ⟨rfl, .cons here cased⟩
        · cases found
      · rintro ⟨whole, cased⟩
        cases cased with
        | cons here cased =>
          obtain ⟨rfl, tail⟩ := List.cons.inj whole
          rw [if_pos here, ih.mpr ⟨tail, cased⟩]
          rfl

theorem cutAtCased?_sound {mark t before taken : Text} (cut : cutAtCased? mark t = some (before, taken)) :
    Cased mark taken ∧ ∃ rest, t = before ++ taken ++ rest := by
  induction t generalizing before with
  | nil => cases cut
  | cons c t ih =>
    rw [cutAtCased?] at cut
    split at cut
    · rename_i here
      cases cut
      obtain ⟨whole, cased⟩ := takeCased?_eq_some.mp here
      exact ⟨cased, _, whole⟩
    · obtain ⟨⟨before', taken'⟩, later, same⟩ := Option.map_eq_some_iff.mp cut
      cases same
      obtain ⟨cased, rest, rfl⟩ := ih later
      exact ⟨cased, rest, rfl⟩

theorem isSome_cutAtCased? {mark taken : Text} (cased : Cased mark taken) (nonempty : taken ≠ []) (before rest : Text) :
    (cutAtCased? mark (before ++ (taken ++ rest))).isSome := by
  induction before with
  | nil =>
    obtain ⟨c, tail, rfl⟩ := List.exists_cons_of_ne_nil nonempty
    have here : takeCased? mark (c :: (tail ++ rest)) = some (c :: tail, rest) := takeCased?_eq_some.mpr ⟨rfl, cased⟩
    simp [cutAtCased?, here]
  | cons c before ih =>
    rw [List.cons_append, cutAtCased?]
    split
    · rfl
    · rwa [Option.isSome_map]

def styleName : Text := ['s', 't', 'y', 'l', 'e']

def styleOpening : Text := '<' :: styleName

def styleClosing : Text := "</style>".toList

/-- How a style element is written around its content. -/
structure StyleText (content lexeme : Text) : Prop where
  shape : ∃ opening attributes closing, lexeme = opening ++ attributes ++ '>' :: content ++ closing ∧
    Cased styleOpening opening ∧ '>' ∉ attributes ∧ Cased styleClosing closing

theorem Cased.length_eq {mark t : Text} (cased : Cased mark t) : t.length = mark.length :=
  (List.Forall₂.length_eq cased).symm

theorem Cased.ne_nil {mark t : Text} (cased : Cased mark t) (nonempty : mark ≠ []) : t ≠ [] := by
  rintro rfl
  cases cased
  exact nonempty rfl

theorem styleElement_sound {t content lexeme : Text} (found : styleElement t = some (content, lexeme)) :
    StyleText content lexeme ∧ ∃ rest, t = lexeme ++ rest := by
  obtain ⟨⟨opening, afterOpening⟩, opened, found⟩ := Option.bind_eq_some_iff.mp found
  obtain ⟨⟨attributes, afterTag⟩, ended, found⟩ := Option.bind_eq_some_iff.mp found
  obtain ⟨⟨_, closing⟩, closed, same⟩ := Option.bind_eq_some_iff.mp found
  cases same
  obtain ⟨rfl, isOpening⟩ := takeCased?_eq_some.mp opened
  obtain ⟨rfl, noEnd⟩ := cutAt?_eq_some.mp ended
  obtain ⟨isClosing, rest, rfl⟩ := cutAtCased?_sound closed
  exact ⟨⟨opening, attributes, closing, rfl, isOpening, noEnd, isClosing⟩, rest, by simp⟩

theorem styleElement_faithful : styleElement.Faithful := by
  intro t content lexeme found
  obtain ⟨⟨opening, attributes, closing, rfl, -⟩, cut⟩ := styleElement_sound found
  exact ⟨by simp, cut⟩

/-- A style element begins where it is opened, ended and later closed, whatever stands between. -/
theorem isSome_styleElement {opening closing : Text} (isOpening : Cased styleOpening opening)
    (isClosing : Cased styleClosing closing) (attributes content rest : Text) :
    (styleElement (opening ++ (attributes ++ '>' :: (content ++ (closing ++ rest))))).isSome := by
  -- The opening tag ends at its first `>`, which may stand before the given one.
  have ended : '>' ∈ attributes ++ ['>'] := by simp
  obtain ⟨early, late, whole, noEnd⟩ := List.eq_append_cons_of_mem ended
  have cut : cutAt? '>' (attributes ++ '>' :: (content ++ (closing ++ rest))) =
      some (early, late ++ content ++ (closing ++ rest)) := by
    refine cutAt?_eq_some.mpr ⟨?_, noEnd⟩
    have longer := congrArg (· ++ (content ++ (closing ++ rest))) whole
    simpa using longer
  have closed := isSome_cutAtCased? isClosing (isClosing.ne_nil (by decide)) (late ++ content) rest
  obtain ⟨⟨before, taken⟩, closed⟩ := Option.isSome_iff_exists.mp closed
  have opened : takeCased? "<style".toList (opening ++ (attributes ++ '>' :: (content ++ (closing ++ rest)))) =
      some (opening, attributes ++ '>' :: (content ++ (closing ++ rest))) := takeCased?_eq_some.mpr ⟨rfl, isOpening⟩
  have closed' : cutAtCased? "</style>".toList (late ++ content ++ (closing ++ rest)) = some (before, taken) := closed
  unfold styleElement
  simp only [opened, cut, closed', Option.bind_eq_bind, Option.bind_some, Option.isSome_some]

end Flipbook.Markup
