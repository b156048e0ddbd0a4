import Flipbook.Proofs.Markup.StyleText
import Flipbook.Proofs.Markup.Tokens
import Flipbook.Proofs.Text.ScanPlaces

namespace Flipbook.Markup

open Text Pattern

def remains {α : Type} (pieces : List (Piece α)) : Text := pieces.filterMap Piece.plain?

/-- The last characters before a removed style and what is left after it begin with a new style element,
    whose opening reaches over the gap. -/
def Rejoins (document : Text) : Prop :=
  ∃ before content lexeme after part, styleElement.scan document = before ++ .found content lexeme :: after ∧
    part <:+ remains before ∧ part ≠ [] ∧ part.length < styleOpening.length ∧
    (styleElement (part ++ remains after)).isSome

section Runs

variable {α : Type}

theorem remains_append (pieces others : List (Piece α)) :
    remains (pieces ++ others) = remains pieces ++ remains others :=
  List.filterMap_append

theorem remains_found (value : α) (lexeme : Text) (pieces : List (Piece α)) :
    remains (.found value lexeme :: pieces) = remains pieces := rfl

theorem remains_plain (c : Char) (pieces : List (Piece α)) : remains (.plain c :: pieces) = c :: remains pieces := rfl

theorem joined_map_plain (t : Text) : Piece.joined (t.map (Piece.plain (α := α))) = t := by
  induction t with
  | nil => rfl
  | cons c t ih =>
    rw [List.map_cons, joined_cons, ih]
    rfl

theorem together_or_apart {pieces : List (Piece α)} {run rest : Text} (left : remains pieces = run ++ rest)
    (nonempty : run ≠ []) :
    (∃ before after, pieces = before ++ (run.map .plain ++ after) ∧ remains before = [] ∧ remains after = rest) ∨
      ∃ before value lexeme after part more, pieces = before ++ .found value lexeme :: after ∧ run = part ++ more ∧
        part ≠ [] ∧ more ≠ [] ∧ remains before = part ∧ remains after = more ++ rest := by
  induction pieces generalizing run with
  | nil => simp [remains, nonempty] at left
  | cons piece pieces ih =>
    cases piece with
    | found value lexeme =>
      rw [remains_found] at left
      rcases ih left nonempty with ⟨before, after, rfl, none, tail⟩ | ⟨before, v, l, after, part, more, rfl, joint⟩
      · exact .inl ⟨.found value lexeme :: before, after, rfl, none, tail⟩
      · exact .inr ⟨.found value lexeme :: before, v, l, after, part, more, rfl, joint⟩
    | plain c =>
      obtain ⟨d, run, rfl⟩ := List.exists_cons_of_ne_nil nonempty
      rw [remains_plain, List.cons_append] at left
      obtain ⟨rfl, others⟩ := List.cons.inj left
      by_cases last : run = []
      · subst last
        exact .inl ⟨[], pieces, rfl, rfl, others⟩
      · rcases ih others last with
          ⟨before, after, rfl, none, tail⟩ | ⟨before, v, l, after, part, more, rfl, same, -, joint⟩
        · cases before with
          | nil => exact .inl ⟨[], after, rfl, rfl, tail⟩
          | cons first before =>
            cases first with
            | plain => cases none
            | found v l =>
              -- The rest of the run stands together, but a match lies between it and the first character.
              rw [remains_found] at none
              refine .inr ⟨[.plain c], v, l, before ++ (run.map .plain ++ after), [c], run, rfl, rfl, by simp, last,
                rfl, ?_⟩
              rw [remains_append, none, remains_append, tail]
              simp [remains, Piece.plain?, Function.comp_def]
        · obtain ⟨filled, left, tail⟩ := joint
          refine .inr ⟨.plain c :: before, v, l, after, c :: part, more, rfl, by rw [same]; rfl, by simp, filled,
            ?_, tail⟩
          rw [remains_plain, left]

theorem found_or_joined (pieces : List (Piece α)) :
    (∃ before value lexeme after, pieces = before ++ .found value lexeme :: after) ∨
      Piece.joined pieces = remains pieces := by
  induction pieces with
  | nil => exact .inr rfl
  | cons piece pieces ih =>
    cases piece with
    | found value lexeme => exact .inl ⟨[], value, lexeme, pieces, rfl⟩
    | plain c =>
      rcases ih with ⟨before, value, lexeme, after, rfl⟩ | same
      · exact .inl ⟨.plain c :: before, value, lexeme, after, rfl⟩
      · right
        rw [joined_cons, same]
        rfl

end Runs

theorem not_together {document opening later : Text} (isOpening : Cased styleOpening opening)
    (begins : (styleElement (opening ++ later)).isSome) {before after : List (Piece Text)}
    (scanned : styleElement.scan document = before ++ (opening.map .plain ++ after)) (tail : remains after = later) :
    False := by
  obtain ⟨rest, rfl, scanned'⟩ := scan_of_append styleElement_faithful scanned
  have text : rest = opening ++ Piece.joined after := by
    have joined := joined_scan styleElement_faithful rest
    rw [scanned', joined_append, joined_map_plain] at joined
    exact joined.symm
  have unread : styleElement rest = none := by
    obtain ⟨c, opening, rfl⟩ := List.exists_cons_of_ne_nil (isOpening.ne_nil (by decide))
    exact none_of_scan_plain styleElement_faithful scanned'
  -- The opening was read as characters, so nothing after it closes it: no end tag, and no other style element.
  have read : (styleElement rest).isSome := by
    rw [text]
    rcases found_or_joined after with ⟨early, content, lexeme, late, rfl⟩ | same
    · have member : .found content lexeme ∈ styleElement.scan rest := by
        rw [scanned']
        simp
      obtain ⟨_, found⟩ := match_of_mem_scan member
      obtain ⟨opening', attributes, closing, rfl, -, -, isClosing⟩ := (styleElement_sound found).1.shape
      have closes := isSome_styleElement isOpening isClosing (Piece.joined early ++ (opening' ++ attributes)) content
        (Piece.joined late)
      rw [joined_append, joined_cons, Piece.lexeme]
      simpa using closes
    · rw [same, tail]
      exact begins
  rw [unread] at read
  cases read

theorem rejoins_of_begins {document before later : Text} (left : removeStyles document = before ++ later)
    (begins : (styleElement later).isSome) : Rejoins document := by
  obtain ⟨⟨content, lexeme⟩, read⟩ := Option.isSome_iff_exists.mp begins
  obtain ⟨⟨opening, attributes, closing, rfl, isOpening, -⟩, rest, whole⟩ := styleElement_sound read
  obtain ⟨early, late, scanned, earlyLeft, lateLeft⟩ := List.filterMap_eq_append_iff.mp left
  have opens : later = opening ++ (attributes ++ '>' :: content ++ closing ++ rest) := by
    rw [whole]
    simp
  rw [opens] at lateLeft begins
  rcases together_or_apart lateLeft (isOpening.ne_nil (by decide)) with
    ⟨before', after', rfl, -, tail⟩ |
    ⟨before', content', lexeme', after', part, more, rfl, rfl, nonempty, nonempty', partLeft, tail⟩
  · rw [← List.append_assoc] at scanned
    exact (not_together isOpening begins scanned tail).elim
  · refine ⟨early ++ before', content', lexeme', after', part, ?_, ?_, nonempty, ?_, ?_⟩
    · rw [List.append_assoc]
      exact scanned
    · rw [remains_append, partLeft]
      exact List.suffix_append _ _
    · have length := isOpening.length_eq
      have filled := List.length_pos_iff.mpr nonempty'
      rw [List.length_append] at length
      omega
    · rw [tail, ← List.append_assoc]
      exact begins

theorem isSome_styleContent?_removeStyles {document : Text} :
    (styleContent? (removeStyles document)).isSome ↔ Rejoins document := by
  constructor
  · intro found
    obtain ⟨content, first⟩ := Option.isSome_iff_exists.mp found
    obtain ⟨m, member, -⟩ := place_of_find? first
    have read := read_of_mem_places styleElement_faithful member
    exact rejoins_of_begins (List.take_append_drop m.start _).symm (by rw [read]; rfl)
  · rintro ⟨before, content, lexeme, after, part, scanned, ⟨start, partLeft⟩, -, -, begins⟩
    have left : removeStyles document = start ++ (part ++ remains after) := by
      unfold removeStyles erase
      rw [scanned, ← List.append_assoc, partLeft]
      exact (remains_append before _).trans (congrArg _ (remains_found content lexeme after))
    unfold styleContent?
    rw [left]
    exact isSome_find?_of_read styleElement_faithful begins

end Flipbook.Markup
