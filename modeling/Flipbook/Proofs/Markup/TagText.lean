import Flipbook.Markup.Tag
import Flipbook.Proofs.Text.Runs

namespace Flipbook.Markup

open Text

inductive ValueText (value : Text) : Text → Prop
  | quoted (quote : Char) (isQuote : quote = '"' ∨ quote = '\'') (inside : quote ∉ value) :
      ValueText value (quote :: value ++ [quote])
  | bare (nonempty : value ≠ []) (inside : ∀ c ∈ value, isBareChar c) : ValueText value value

/-- What an attribute has after its name. -/
inductive AssignedText : Option Text → Text → Prop
  | absent : AssignedText none []
  | present {before after value written : Text} (blankBefore : ∀ c ∈ before, isBlank c)
      (blankAfter : ∀ c ∈ after, isBlank c) (text : ValueText value written) :
      AssignedText (some value) ((before ++ '=' :: after) ++ written)

/-- The text after a value does not belong to it: a bare value goes as far as it can. -/
def ValueStops (written rest : Text) : Prop :=
  ∀ c ∈ written.getLast?, isBareChar c → Halts isBareChar rest

def AssignedStops (assigned rest : Text) : Prop :=
  (assigned = [] → Halts (· = '=') (rest.dropWhile isBlank)) ∧ ValueStops assigned rest

theorem isBareChar_quote {c : Char} (isQuote : c = '"' ∨ c = '\'') : isBareChar c = false := by
  rcases isQuote with rfl | rfl <;> decide

theorem isBareChar_of_isBlank {c : Char} (blank : isBlank c) : isBareChar c = false := by
  simp [isBareChar, blank]

theorem isAttributeNameChar_of_isBlank {c : Char} (blank : isBlank c) : isAttributeNameChar c = false := by
  simp [isAttributeNameChar, blank]

theorem isTagNameChar_of_isBlank {c : Char} (blank : isBlank c) : isTagNameChar c = false :=
  not_of_isBlank (by decide +kernel) blank

theorem isBlank_of_isAttributeNameChar {c : Char} (nameChar : isAttributeNameChar c) : isBlank c = false := by
  cases blank : isBlank c with
  | false => rfl
  | true =>
    rw [isAttributeNameChar_of_isBlank blank] at nameChar
    cases nameChar

theorem isBlank_of_isBareChar {c : Char} (bareChar : isBareChar c) : isBlank c = false := by
  cases blank : isBlank c with
  | false => rfl
  | true =>
    rw [isBareChar_of_isBlank blank] at bareChar
    cases bareChar

theorem valueStops_quoted {quote : Char} (isQuote : quote = '"' ∨ quote = '\'') (text rest : Text) :
    ValueStops (text ++ [quote]) rest := by
  intro c last bareChar
  simp only [List.getLast?_append, List.getLast?_singleton, Option.some_or, Option.mem_def,
    Option.some.injEq] at last
  subst last
  rw [isBareChar_quote isQuote] at bareChar
  cases bareChar

theorem ValueText.ne_nil {value written : Text} (text : ValueText value written) : written ≠ [] := by
  cases text with
  | quoted => simp
  | bare nonempty => exact nonempty

theorem ValueText.head_not_blank {value written : Text} (text : ValueText value written) (rest : Text) :
    Halts isBlank (written ++ rest) := by
  cases text with
  | quoted quote isQuote =>
    rw [List.append_assoc, List.cons_append, halts_cons]
    rcases isQuote with rfl | rfl <;> decide
  | bare nonempty inside =>
    cases value with
    | nil => exact absurd rfl nonempty
    | cons c tail => exact halts_cons.mpr (isBlank_of_isBareChar (inside c (by simp)))

theorem takeValue?_complete {value written rest : Text} (text : ValueText value written)
    (stops : ValueStops written rest) : takeValue? (written ++ rest) = some (value, written, rest) := by
  cases text with
  | quoted quote isQuote inside =>
    have cut : cutAt? quote (value ++ quote :: rest) = some (value, rest) :=
      cutAt?_eq_some.mpr ⟨rfl, inside⟩
    simp [takeValue?, isQuote, cut]
  | bare nonempty inside =>
    cases value with
    | nil => exact absurd rfl nonempty
    | cons c tail =>
      have first := inside c (by simp)
      have noQuote : ¬ (c = '"' ∨ c = '\'') := by
        intro isQuote
        rw [isBareChar_quote isQuote] at first
        cases first
      have halts : Halts isBareChar rest := by
        obtain ⟨last, isLast⟩ := List.getLast?_isSome.mpr nonempty |> Option.isSome_iff_exists.mp
        exact stops last isLast (inside last (List.mem_of_getLast? isLast))
      have taken := takeWhile_run inside halts
      have dropped := dropWhile_run inside halts
      rw [List.cons_append] at taken dropped ⊢
      simp only [takeValue?, if_neg noQuote, taken, dropped]

theorem takeValue?_sound {t value written rest : Text} (read : takeValue? t = some (value, written, rest)) :
    t = written ++ rest ∧ ValueText value written ∧ ValueStops written rest := by
  cases t with
  | nil => cases read
  | cons c tail =>
    simp only [takeValue?] at read
    split at read
    · rename_i isQuote
      obtain ⟨⟨value', after⟩, cut, same⟩ := Option.map_eq_some_iff.mp read
      cases same
      obtain ⟨rfl, inside⟩ := cutAt?_eq_some.mp cut
      exact ⟨by simp, .quoted c isQuote inside, valueStops_quoted isQuote (c :: value') after⟩
    · rename_i noQuote
      split at read
      · cases read
      · rename_i value' nonempty
        cases read
        refine ⟨List.takeWhile_append_dropWhile.symm, .bare nonempty fun d member => ?_, ?_⟩
        · exact List.mem_takeWhile_imp member
        · intro _ _ _
          exact halts_dropWhile (c :: tail)

theorem takeAssigned?_complete {value : Option Text} {assigned rest : Text}
    (text : AssignedText value assigned) (stops : AssignedStops assigned rest) :
    takeAssigned? (assigned ++ rest) = some (value, assigned, rest) := by
  cases text with
  | absent =>
    have halts := stops.1 rfl
    rw [List.nil_append]
    cases after : rest.dropWhile isBlank with
    | nil => simp [takeAssigned?, after]
    | cons c tail =>
      have noEquals : c ≠ '=' := by simpa [after, halts_cons] using halts
      simp only [takeAssigned?, after]
      split
      · rename_i same
        exact absurd (List.cons.inj same).1 noEquals
      · rfl
  | @present before after value written blankBefore blankAfter text =>
    have stops : ValueStops written rest := by
      intro c last
      refine stops.2 c ?_
      rw [List.getLast?_append, Option.mem_def.mp last]
      rfl
    have equals : Halts isBlank ('=' :: (after ++ (written ++ rest))) := halts_cons.mpr (by decide)
    have cut : (before ++ '=' :: after) ++ written ++ rest = before ++ '=' :: (after ++ (written ++ rest)) := by
      simp
    have blanks := takeWhile_run blankAfter (text.head_not_blank rest)
    have past := dropWhile_run blankAfter (text.head_not_blank rest)
    rw [cut]
    simp only [takeAssigned?, dropWhile_run blankBefore equals, takeWhile_run blankBefore equals, past,
      takeValue?_complete text stops, blanks]
    simp

theorem takeAssigned?_sound {t assigned rest : Text} {value : Option Text}
    (read : takeAssigned? t = some (value, assigned, rest)) :
    t = assigned ++ rest ∧ AssignedText value assigned ∧ AssignedStops assigned rest := by
  simp only [takeAssigned?] at read
  split at read
  · rename_i tail found
    obtain ⟨⟨value', written, after⟩, taken, same⟩ := Option.bind_eq_some_iff.mp read
    cases same
    obtain ⟨cut, text, stops⟩ := takeValue?_sound taken
    have whole : t = t.takeWhile isBlank ++ '=' :: tail := by
      rw [← found, List.takeWhile_append_dropWhile]
    have inner : tail = tail.takeWhile isBlank ++ (written ++ after) := by
      rw [← cut, List.takeWhile_append_dropWhile]
    refine ⟨?_, .present (fun c => List.mem_takeWhile_imp) (fun c => List.mem_takeWhile_imp) text, ?_, ?_⟩
    · calc
        t = t.takeWhile isBlank ++ '=' :: tail := whole
        _ = t.takeWhile isBlank ++ '=' :: (tail.takeWhile isBlank ++ (written ++ after)) := by rw [← inner]
        _ = _ := by simp
    · simp
    · intro c last
      refine stops c ?_
      obtain ⟨d, isLast⟩ := Option.isSome_iff_exists.mp (List.getLast?_isSome.mpr text.ne_nil)
      rw [List.getLast?_append, isLast] at last
      rwa [isLast]
  · rename_i notEquals
    cases read
    refine ⟨rfl, .absent, fun _ c first => ?_, by simp [ValueStops]⟩
    rw [Option.mem_def, List.head?_eq_some_iff] at first
    obtain ⟨tail, found⟩ := first
    simpa using fun same : c = '=' => notEquals tail (same ▸ found)

def Attribute.assigned (a : Attribute) : Text := a.text.drop a.name.length

structure Attribute.Legible (a : Attribute) : Prop where
  gap_ne_nil : a.gap ≠ []
  gap_blank : ∀ c ∈ a.gap, isBlank c
  name_ne_nil : a.name ≠ []
  name_chars : ∀ c ∈ a.name, isAttributeNameChar c
  text_eq : a.text = a.name ++ a.assigned
  assigned_text : AssignedText a.value a.assigned

def attributesText (attributes : List Attribute) : Text := attributes.flatMap fun a => a.gap ++ a.text

def endingText (selfClosing : Bool) : Text := if selfClosing then ['/', '>'] else ['>']

def SlashApart (attributes : List Attribute) (tail : Text) (selfClosing : Bool) : Prop :=
  tail = [] → selfClosing → ∀ a ∈ attributes.getLast?, ∀ c ∈ a.assigned.getLast?, isBareChar c = false

abbrev remainder (attributes : List Attribute) (tail : Text) (selfClosing : Bool) (rest : Text) : Text :=
  attributesText attributes ++ (tail ++ (endingText selfClosing ++ rest))

theorem attributesText_cons (a : Attribute) (attributes : List Attribute) :
    attributesText (a :: attributes) = a.gap ++ (a.text ++ attributesText attributes) := by
  simp [attributesText]

theorem Attribute.Legible.halts_blank {a : Attribute} (legible : a.Legible) (rest : Text) :
    Halts isBlank (a.name ++ rest) := by
  obtain ⟨c, name, shape⟩ := List.exists_cons_of_ne_nil legible.name_ne_nil
  have nameChar := legible.name_chars c (by simp [shape])
  rw [shape, List.cons_append, halts_cons]
  exact isBlank_of_isAttributeNameChar nameChar

theorem AssignedText.halts_name {value : Option Text} {assigned rest : Text}
    (text : AssignedText value assigned) (halts : Halts isAttributeNameChar rest) :
    Halts isAttributeNameChar (assigned ++ rest) := by
  cases text with
  | absent => exact halts
  | @present before after value written blankBefore =>
    cases before with
    | nil => exact halts_cons.mpr (by decide)
    | cons c before => exact halts_cons.mpr (isAttributeNameChar_of_isBlank (blankBefore c (by simp)))

section Remainder

variable {attributes : List Attribute} {tail : Text} {selfClosing : Bool}

theorem halts_remainder {p : Char → Bool} (legible : ∀ a ∈ attributes, a.Legible)
    (blank : ∀ c ∈ tail, isBlank c) (atBlank : ∀ c, isBlank c → p c = false) (atGreater : p '>' = false)
    (atSlash : attributes = [] → tail = [] → selfClosing → p '/' = false) (rest : Text) :
    Halts p (remainder attributes tail selfClosing rest) := by
  cases attributes with
  | cons a attributes =>
    have first := legible a (by simp)
    obtain ⟨c, gap, shape⟩ := List.exists_cons_of_ne_nil first.gap_ne_nil
    rw [remainder, attributesText_cons, shape]
    exact halts_cons.mpr (atBlank c (first.gap_blank c (by simp [shape])))
  | nil =>
    cases tail with
    | cons c tail => exact halts_cons.mpr (atBlank c (blank c (by simp)))
    | nil =>
      cases selfClosing with
      | false => exact halts_cons.mpr atGreater
      | true => exact halts_cons.mpr (atSlash rfl rfl rfl)

theorem halts_ending (selfClosing : Bool) (rest : Text) :
    Halts isBlank (endingText selfClosing ++ rest) := by
  cases selfClosing <;> exact halts_cons.mpr (by decide)

theorem halts_equals_remainder (legible : ∀ a ∈ attributes, a.Legible) (blank : ∀ c ∈ tail, isBlank c)
    (rest : Text) :
    Halts (· = '=') ((remainder attributes tail selfClosing rest).dropWhile isBlank) := by
  cases attributes with
  | cons a attributes =>
    have first := legible a (by simp)
    obtain ⟨c, name, shape⟩ := List.exists_cons_of_ne_nil first.name_ne_nil
    have nameChar := first.name_chars c (by simp [shape])
    have notEquals : c ≠ '=' := by
      rintro rfl
      revert nameChar
      decide
    have cut : remainder (a :: attributes) tail selfClosing rest =
        a.gap ++ (a.name ++ (a.assigned ++ remainder attributes tail selfClosing rest)) := by
      rw [remainder, attributesText_cons, first.text_eq]
      simp
    rw [cut, dropWhile_run first.gap_blank (first.halts_blank _), shape, List.cons_append, halts_cons]
    simpa using notEquals
  | nil =>
    rw [remainder, attributesText, List.flatMap_nil, List.nil_append,
      dropWhile_run blank (halts_ending selfClosing rest)]
    cases selfClosing <;> exact halts_cons.mpr (by decide)

theorem assignedStops_remainder {a : Attribute} (legible : ∀ b ∈ attributes, b.Legible)
    (blank : ∀ c ∈ tail, isBlank c) (apart : SlashApart (a :: attributes) tail selfClosing) (rest : Text) :
    AssignedStops a.assigned (remainder attributes tail selfClosing rest) := by
  refine ⟨fun _ => halts_equals_remainder legible blank rest, fun c last bareChar => ?_⟩
  refine halts_remainder legible blank (fun d => isBareChar_of_isBlank) (by decide) ?_ rest
  intro noAttributes noTail closes
  subst noAttributes
  have notBare := apart noTail closes a rfl c last
  rw [notBare] at bareChar
  cases bareChar

theorem SlashApart.of_cons {a : Attribute} (apart : SlashApart (a :: attributes) tail selfClosing) :
    SlashApart attributes tail selfClosing := by
  intro noTail closes b last
  cases attributes with
  | nil => cases last
  | cons d attributes => exact apart noTail closes b last

theorem SlashApart.cons {a : Attribute} {rest : Text} (apart : SlashApart attributes tail selfClosing)
    (stops : AssignedStops a.assigned (remainder attributes tail selfClosing rest)) :
    SlashApart (a :: attributes) tail selfClosing := by
  intro noTail closes b last c lastChar
  cases attributes with
  | cons d attributes => exact apart noTail closes b last c lastChar
  | nil =>
    have same : a = b := by simpa using last
    rw [← same] at lastChar
    cases bareChar : isBareChar c with
    | false => rfl
    | true =>
      -- a bare value would have gone on with the slash
      have halts := stops.2 c lastChar bareChar
      rw [noTail, closes] at halts
      exact absurd (halts '/' rfl) (by decide)

theorem takeAttributes?_complete (legible : ∀ a ∈ attributes, a.Legible) (blank : ∀ c ∈ tail, isBlank c)
    (apart : SlashApart attributes tail selfClosing) (rest : Text) {fuel : Nat}
    (enough : attributes.length < fuel) :
    takeAttributes? fuel (remainder attributes tail selfClosing rest) =
      some (attributes, tail, selfClosing, rest) := by
  induction attributes generalizing fuel with
  | nil =>
    obtain ⟨fuel, rfl⟩ := Nat.exists_eq_succ_of_ne_zero (Nat.ne_of_gt enough)
    have taken := takeWhile_run blank (halts_ending selfClosing rest)
    have dropped := dropWhile_run blank (halts_ending selfClosing rest)
    simp only [remainder, attributesText, List.flatMap_nil, List.nil_append, takeAttributes?, taken, dropped]
    cases selfClosing <;> rfl
  | cons a attributes ih =>
    obtain ⟨fuel, rfl⟩ := Nat.exists_eq_succ_of_ne_zero (Nat.ne_of_gt (Nat.zero_lt_of_lt enough))
    have first := legible a (by simp)
    have legible : ∀ b ∈ attributes, b.Legible := fun b member => legible b (by simp [member])
    have others := ih legible apart.of_cons (Nat.lt_of_succ_lt_succ enough)
    let after := remainder attributes tail selfClosing rest
    have cut : remainder (a :: attributes) tail selfClosing rest =
        a.gap ++ (a.name ++ (a.assigned ++ after)) := by
      rw [remainder, attributesText_cons, first.text_eq]
      simp [after]
    have name : Halts isAttributeNameChar (a.assigned ++ after) :=
      first.assigned_text.halts_name (halts_remainder legible blank
        (fun d => isAttributeNameChar_of_isBlank) (by decide) (fun _ _ _ => by decide) rest)
    have read := takeAssigned?_complete first.assigned_text (assignedStops_remainder legible blank apart rest)
    obtain ⟨c, name', shape⟩ := List.exists_cons_of_ne_nil first.name_ne_nil
    have nameChar := first.name_chars c (by simp [shape])
    rw [cut]
    simp only [takeAttributes?, takeWhile_run first.gap_blank (first.halts_blank _),
      dropWhile_run first.gap_blank (first.halts_blank _)]
    split
    · rename_i same
      rw [shape] at same
      have : c = '>' := (List.cons.inj same).1
      rw [this] at nameChar
      exact absurd nameChar (by decide)
    · rename_i same
      rw [shape] at same
      have : c = '/' := (List.cons.inj same).1
      rw [this] at nameChar
      exact absurd nameChar (by decide)
    · rw [takeWhile_run first.name_chars name, dropWhile_run first.name_chars name, read]
      simp [first.gap_ne_nil, first.name_ne_nil, others, ← first.text_eq]

end Remainder

theorem takeAttributes?_sound {fuel : Nat} {t tail rest : Text} {attributes : List Attribute}
    {selfClosing : Bool} (read : takeAttributes? fuel t = some (attributes, tail, selfClosing, rest)) :
    t = remainder attributes tail selfClosing rest ∧ (∀ a ∈ attributes, a.Legible) ∧
      (∀ c ∈ tail, isBlank c) ∧ SlashApart attributes tail selfClosing := by
  induction fuel generalizing t attributes with
  | zero => cases read
  | succ fuel ih =>
    have whole := List.takeWhile_append_dropWhile (p := isBlank) (l := t)
    have gapBlank : ∀ c ∈ t.takeWhile isBlank, isBlank c := fun c => List.mem_takeWhile_imp
    simp only [takeAttributes?] at read
    split at read
    · rename_i found
      cases read
      rw [found] at whole
      exact ⟨by simp [remainder, attributesText, endingText, whole], by simp, gapBlank, by simp [SlashApart]⟩
    · rename_i found
      cases read
      rw [found] at whole
      exact ⟨by simp [remainder, attributesText, endingText, whole], by simp, gapBlank, by simp [SlashApart]⟩
    · split at read
      · cases read
      · rename_i present
        simp only [Bool.or_eq_true, List.isEmpty_iff, not_or] at present
        obtain ⟨⟨value, assigned, after⟩, assignment, read⟩ := Option.bind_eq_some_iff.mp read
        obtain ⟨⟨others, tail', selfClosing', rest'⟩, following, same⟩ := Option.bind_eq_some_iff.mp read
        simp only [Option.some.injEq, Prod.mk.injEq] at same
        obtain ⟨rfl, rfl, rfl, rfl⟩ := same
        obtain ⟨cut, text, stops⟩ := takeAssigned?_sound assignment
        obtain ⟨cut', legible, blank, apart⟩ := ih following
        dsimp only at cut'
        let nameText := (t.dropWhile isBlank).takeWhile isAttributeNameChar
        have inner : nameText ++ (assigned ++ after) = t.dropWhile isBlank := by
          rw [← cut, List.takeWhile_append_dropWhile]
        let a : Attribute := ⟨t.takeWhile isBlank, nameText, value, nameText ++ assigned⟩
        have assigned_eq : a.assigned = assigned := List.drop_left
        have first : a.Legible :=
          ⟨present.1, gapBlank, present.2, fun c => List.mem_takeWhile_imp, by rw [assigned_eq], by
            rw [assigned_eq]; exact text⟩
        have stops' : AssignedStops a.assigned (remainder others tail' selfClosing' rest') := by
          rwa [assigned_eq, ← cut']
        refine ⟨?_, ?_, blank, apart.cons stops'⟩
        · calc
            t = a.gap ++ (nameText ++ (assigned ++ after)) := by rw [inner, whole]
            _ = remainder (a :: others) tail' selfClosing' rest' := by
              rw [cut', remainder, remainder, attributesText_cons]
              simp [a]
        · intro b member
          rcases List.mem_cons.mp member with rfl | member
          · exact first
          · exact legible b member

structure Tag.Legible (tag : Tag) : Prop where
  name : ∃ c rest, tag.name = c :: rest ∧ isAsciiLetter c ∧ ∀ d ∈ rest, isTagNameChar d
  attributes : ∀ a ∈ tag.attributes, a.Legible
  added : tag.added = []
  tail : ∀ c ∈ tag.tail, isBlank c
  apart : SlashApart tag.attributes tag.tail tag.selfClosing

theorem Tag.render_append {tag : Tag} (noneAdded : tag.added = []) (rest : Text) :
    tag.render ++ rest = '<' :: (tag.name ++ remainder tag.attributes tag.tail tag.selfClosing rest) := by
  simp [Tag.render, noneAdded, remainder, attributesText, Tag.ending, endingText]

theorem length_attributes_le {attributes : List Attribute} (legible : ∀ a ∈ attributes, a.Legible) :
    attributes.length ≤ (attributesText attributes).length := by
  induction attributes with
  | nil => exact Nat.zero_le _
  | cons a attributes ih =>
    have first := List.length_pos_iff.mpr (legible a (by simp)).gap_ne_nil
    have others := ih fun b member => legible b (by simp [member])
    rw [attributesText_cons, List.length_cons, List.length_append, List.length_append]
    omega

theorem halts_tagName {attributes : List Attribute} {tail : Text} (legible : ∀ a ∈ attributes, a.Legible)
    (blank : ∀ c ∈ tail, isBlank c) (selfClosing : Bool) (rest : Text) :
    Halts isTagNameChar (remainder attributes tail selfClosing rest) :=
  halts_remainder legible blank (fun c => isTagNameChar_of_isBlank) (by decide) (fun _ _ _ => by decide) rest

theorem Tag.read?_complete {tag : Tag} (legible : tag.Legible) (rest : Text) :
    Tag.read? (tag.render ++ rest) = some (tag, rest) := by
  obtain ⟨c, name, shape, letter, inside⟩ := legible.name
  have halts := halts_tagName legible.attributes legible.tail tag.selfClosing rest
  have enough : tag.attributes.length < (tag.render ++ rest).length + 1 := by
    have count := length_attributes_le legible.attributes
    rw [Tag.render_append legible.added]
    simp only [List.length_cons, List.length_append]
    omega
  have attributes := takeAttributes?_complete legible.attributes legible.tail legible.apart rest enough
  rw [Tag.render_append legible.added] at attributes ⊢
  rw [shape, List.cons_append] at attributes ⊢
  simp only [Tag.read?, letter, ↓reduceIte, takeWhile_run inside halts, dropWhile_run inside halts]
  rw [attributes]
  have noneAdded := legible.added
  cases tag
  simp_all

theorem Tag.read?_sound {t rest : Text} {tag : Tag} (read : Tag.read? t = some (tag, rest)) :
    tag.Legible ∧ t = tag.render ++ rest := by
  unfold Tag.read? at read
  split at read
  · rename_i c after
    split at read
    · rename_i letter
      obtain ⟨⟨attributes, tail, selfClosing, rest'⟩, taken, same⟩ := Option.bind_eq_some_iff.mp read
      cases same
      obtain ⟨cut, legible, blank, apart⟩ := takeAttributes?_sound taken
      refine ⟨⟨⟨c, _, rfl, letter, fun d => List.mem_takeWhile_imp⟩, legible, rfl, blank, apart⟩, ?_⟩
      rw [Tag.render_append rfl, List.cons_append, ← cut, List.takeWhile_append_dropWhile]
    · cases read
  · cases read

theorem Tag.read?_eq_some_iff {t rest : Text} {tag : Tag} :
    Tag.read? t = some (tag, rest) ↔ tag.Legible ∧ t = tag.render ++ rest := by
  constructor
  · exact Tag.read?_sound
  · rintro ⟨legible, rfl⟩
    exact Tag.read?_complete legible rest

end Flipbook.Markup
