import Flipbook.Proofs.Markup.StyleText
import Flipbook.Proofs.Markup.Untouched
import Flipbook.Proofs.Text.ScanPlaces

namespace Flipbook.Markup

open Text Pattern

def IsStyleName (name : Text) : Prop := Cased styleName name

/-- How the place looks to the tokens of the document where a style element is opened. -/
inductive StyleStart (document : Text) (place : Nat) : Prop
  | element {stop : Nat} {tag : Tag} (placed : (place, stop, tag) ∈ placedTags document)
      (isStyle : IsStyleName tag.name) (opens : tag.selfClosing = false)
  | selfClosing {stop : Nat} {tag : Tag} (placed : (place, stop, tag) ∈ placedTags document)
      (isStyle : IsStyleName tag.name) (closes : tag.selfClosing = true)
  | longerName {stop : Nat} {tag : Tag} (placed : (place, stop, tag) ∈ placedTags document) {name more : Text}
      (shape : tag.name = name ++ more) (isStyle : IsStyleName name) (nonempty : more ≠ [])
  | insideToken {m : Placed Token} (member : m ∈ token.places document) (later : m.start < place)
      (earlier : place < m.stop)
  | noToken (none : token (document.drop place) = none)

theorem mem_placedTagsFrom {start place stop : Nat} {tag : Tag} {pieces : List (Piece Token)} :
    (place, stop, tag) ∈ placedTagsFrom start pieces ↔
      ∃ m ∈ placedFrom start pieces, m.value = .tag tag ∧ m.start = place ∧ m.stop = stop := by
  induction pieces generalizing start with
  | nil => simp [placedTagsFrom, placedFrom]
  | cons piece rest ih =>
    have later := @ih (start + piece.lexeme.length)
    cases piece with
    | plain c => exact later
    | found tok lexeme =>
      cases tok with
      | tag other =>
        rw [placedTagsFrom]
        simp only [tag?, placedFrom, List.mem_cons, exists_eq_or_imp, later]
        refine or_congr ?_ Iff.rfl
        simp only [Prod.mk.injEq, Token.tag.injEq, Placed.stop, Piece.lexeme]
        constructor
        · rintro ⟨rfl, rfl, rfl⟩
          exact ⟨rfl, rfl, rfl⟩
        · rintro ⟨rfl, rfl, rfl⟩
          exact ⟨rfl, rfl, rfl⟩
      | _ =>
        rw [placedTagsFrom]
        simp only [tag?, placedFrom, List.mem_cons, exists_eq_or_imp, later, reduceCtorEq, false_and, false_or]
        rfl

theorem mem_placedTags {document : Text} {place stop : Nat} {tag : Tag} :
    (place, stop, tag) ∈ placedTags document ↔
      ∃ m ∈ token.places document, m.value = .tag tag ∧ m.start = place ∧ m.stop = stop := mem_placedTagsFrom

theorem isTagNameChar_of_isAsciiLetter {c : Char} (letter : isAsciiLetter c) : isTagNameChar c := by
  have low : c.val < 128 := by
    simp only [isAsciiLetter, Bool.or_eq_true, Bool.and_eq_true, decide_eq_true_eq] at letter
    rcases letter with ⟨-, high⟩ | ⟨-, high⟩
    · exact UInt32.lt_of_le_of_lt high (by decide)
    · exact UInt32.lt_of_le_of_lt high (by decide)
  unfold isTagNameChar isWord
  rw [if_pos low, letter]
  rfl

theorem isTagNameChar_of_isCaseOf {letter c : Char} (inName : letter ∈ styleName)
    (same : isCaseOf letter c) : isTagNameChar c := by
  simp only [isCaseOf, Bool.or_eq_true, Bool.and_eq_true, decide_eq_true_eq] at same
  rcases same with (rfl | ⟨upper, -⟩) | ⟨-, rfl⟩
  · have letters : (styleName.all isTagNameChar) = true := by decide
    exact List.all_eq_true.mp letters c inName
  · have bounds : 'A' ≤ c ∧ c ≤ 'Z' := of_decide_eq_true upper
    exact isTagNameChar_of_isAsciiLetter (by simp [isAsciiLetter, bounds])
  · decide +kernel

theorem isTagNameChar_of_cased {mark name : Text} (inside : mark ⊆ styleName)
    (cased : Cased mark name) : ∀ c ∈ name, isTagNameChar c := by
  induction cased with
  | nil => simp
  | cons same others ih =>
    obtain ⟨first, inside⟩ := List.cons_subset.mp inside
    exact List.forall_mem_cons.mpr ⟨isTagNameChar_of_isCaseOf first same, ih inside⟩

theorem Tag.Legible.isTagNameChar {tag : Tag} (legible : tag.Legible) : ∀ c ∈ tag.name, isTagNameChar c := by
  obtain ⟨c, rest, shape, letter, inside⟩ := legible.name
  rw [shape]
  exact List.forall_mem_cons.mpr ⟨isTagNameChar_of_isAsciiLetter letter, inside⟩

theorem name_of_opening {tag : Tag} (legible : tag.Legible) {opening rest after : Text}
    (isOpening : Cased styleOpening opening) (same : tag.render ++ rest = opening ++ after) :
    ∃ name more, tag.name = name ++ more ∧ IsStyleName name := by
  obtain ⟨less, name, -, isName, rfl⟩ := List.forall₂_cons_left_iff.mp isOpening
  rw [Tag.render_append legible.added, List.cons_append] at same
  have tails := (List.cons.inj same).2
  -- Both readings of the text take the characters of a name as far as they go.
  have taken := takeWhile_run legible.isTagNameChar (halts_tagName legible.attributes legible.tail tag.selfClosing rest)
  have begins := isTagNameChar_of_cased (List.Subset.refl _) isName
  rw [tails, List.takeWhile_append_of_pos begins] at taken
  exact ⟨name, _, taken.symm, isName⟩

theorem isTag_of_opening {tok : Token} {lexeme opening rest after : Text} (text : TokenText tok lexeme)
    (isOpening : Cased styleOpening opening) (same : lexeme ++ rest = opening ++ after) :
    ∃ tag : Tag, tok = .tag tag ∧ tag.Legible ∧ lexeme = tag.render := by
  obtain ⟨less, _, -, isName, rfl⟩ := List.forall₂_cons_left_iff.mp isOpening
  obtain ⟨second, name, isSecond, -, rfl⟩ := List.forall₂_cons_left_iff.mp isName
  have apart {start stop : String} {other : Char} {mark : Text} (shape : start.toList = '<' :: other :: mark)
      (noCase : isCaseOf 's' other = false) (text : span? start stop lexeme = some lexeme) : False := by
    obtain ⟨tail, whole⟩ := opening_prefix text rest
    rw [same, shape] at whole
    have here : other = second := (List.cons.inj (List.cons.inj whole).2).1
    rw [here, isSecond] at noCase
    cases noCase
  cases text with
  | comment text => exact (apart rfl (by decide) text).elim
  | characterData text => exact (apart rfl (by decide) text).elim
  | instruction text => exact (apart rfl (by decide) text).elim
  | declaration text => exact (apart rfl (by decide) text).elim
  | tag legible => exact ⟨_, rfl, legible, rfl⟩

theorem styleStart_of_read {document opening after : Text} {place : Nat} (isOpening : Cased styleOpening opening)
    (here : document.drop place = opening ++ after) : StyleStart document place := by
  rcases covered_or_none token_faithful document place with ⟨m, member, covers⟩ | none
  · obtain ⟨low, high⟩ : m.start ≤ place ∧ place < m.stop := by simpa [Placed.covers] using covers
    rcases Nat.lt_or_eq_of_le low with later | rfl
    · exact .insideToken member later high
    · obtain ⟨text, rest, cut⟩ := token_sound (read_of_mem_places token_faithful member)
      obtain ⟨tag, isTag, legible, shape⟩ := isTag_of_opening text isOpening (cut.symm.trans here)
      have placed : (m.start, m.stop, tag) ∈ placedTags document := mem_placedTags.mpr ⟨m, member, isTag, rfl, rfl⟩
      rw [shape] at cut
      obtain ⟨name, more, whole, isStyle⟩ := name_of_opening legible isOpening (cut.symm.trans here)
      cases more with
      | cons c more => exact .longerName placed whole isStyle (List.cons_ne_nil c more)
      | nil =>
        rw [List.append_nil] at whole
        rw [← whole] at isStyle
        cases closes : tag.selfClosing with
        | true => exact .selfClosing placed isStyle closes
        | false => exact .element placed isStyle closes
  · exact .noToken none

def ClosesStyle (t : Text) : Prop :=
  ∃ content closing rest, t = content ++ (closing ++ rest) ∧ Cased styleClosing closing

theorem Tag.render_ended (tag : Tag) : ∃ attributes, tag.render = '<' :: tag.name ++ (attributes ++ ['>']) := by
  have ending : tag.ending = tag.ending.dropLast ++ ['>'] := by
    unfold Tag.ending
    split <;> rfl
  refine ⟨attributesText tag.attributes ++ (attributesText tag.added ++ (tag.tail ++ tag.ending.dropLast)), ?_⟩
  unfold Tag.render
  rw [ending]
  simp [attributesText]

theorem covered_of_styleTag {document : Text} {place stop : Nat} {tag : Tag}
    (placed : (place, stop, tag) ∈ placedTags document) (isStyle : IsStyleName tag.name)
    (closes : ClosesStyle (document.drop stop)) : ∃ m ∈ styleElement.places document, m.covers place := by
  obtain ⟨⟨place, _, lexeme⟩, member, rfl, rfl, rfl⟩ := mem_placedTags.mp placed
  obtain ⟨text, rest, cut⟩ := token_sound (read_of_mem_places token_faithful member)
  have shape : lexeme = tag.render := by
    cases text
    rfl
  have remaining : document.drop (place + lexeme.length) = rest := by
    rw [← List.drop_drop, cut, List.drop_left]
  obtain ⟨content, closing, later, closed, isClosing⟩ := closes
  obtain ⟨attributes, ended⟩ := tag.render_ended
  have here : document.drop place = '<' :: tag.name ++ (attributes ++ '>' :: (content ++ (closing ++ later))) := by
    have continued : rest = content ++ (closing ++ later) := remaining.symm.trans closed
    rw [cut, shape, ended, continued]
    simp
  have isOpening : Cased styleOpening ('<' :: tag.name) := .cons (by decide) isStyle
  have found := isSome_styleElement isOpening isClosing attributes content later
  rcases covered_or_none styleElement_faithful document place with covered | none
  · exact covered
  · rw [← here, none] at found
    cases found

/-- Removing the styles leaves the characters that no style element of the search covers. Each of these begins
    with `<style`, and ends with an end tag; it may stand at the tag of a style element, at another tag, within
    a token or at none. No style element that is closed in the document is passed over. -/
theorem removeStyles_spans (document : Text) :
    removeStyles document = outside (styleElement.places document) 0 document ∧
    (∀ m ∈ styleElement.places document, StyleText m.value m.lexeme ∧ m.lexeme <+: document.drop m.start ∧
      StyleStart document m.start) ∧
    ∀ place stop tag, (place, stop, tag) ∈ placedTags document → IsStyleName tag.name →
      ClosesStyle (document.drop stop) → ∃ m ∈ styleElement.places document, m.covers place := by
  refine ⟨erase_eq styleElement_faithful document, ?_, fun place stop tag => covered_of_styleTag⟩
  intro m member
  obtain ⟨text, rest, cut⟩ := styleElement_sound (read_of_mem_places styleElement_faithful member)
  refine ⟨text, ⟨rest, cut.symm⟩, ?_⟩
  obtain ⟨opening, attributes, closing, shape, isOpening, -⟩ := text.shape
  rw [shape] at cut
  have here : document.drop m.start = opening ++ (attributes ++ '>' :: m.value ++ closing ++ rest) := by
    rw [cut]
    simp
  exact styleStart_of_read isOpening here

def emptyStyle : Text := "<svg><style/><rect/><style>a{}</style></svg>".toList

theorem removeStyles_spans_emptyStyle : ∃ m ∈ styleElement.places emptyStyle, m.start = 5 ∧
    StyleText m.value m.lexeme ∧ m.lexeme <+: emptyStyle.drop 5 ∧ StyleStart emptyStyle 5 := by
  have member : ⟨5, "<rect/><style>a{}".toList, "<style/><rect/><style>a{}</style>".toList⟩ ∈
      styleElement.places emptyStyle := by decide +kernel
  exact ⟨_, member, rfl, (removeStyles_spans emptyStyle).2.1 _ member⟩

example : removeStyles "<svg><style/><rect/><style>a{}</style></svg>".toList = "<svg></svg>".toList := by
  decide +kernel

end Flipbook.Markup
