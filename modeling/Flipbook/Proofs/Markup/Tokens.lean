import Flipbook.Markup.Document
import Flipbook.Proofs.Markup.TagText
import Mathlib.Data.List.Infix

namespace Flipbook

theorem Pattern.match_of_mem_scan {α : Type} {p : Pattern α} {t : Text} {value : α} {lexeme : Text}
    (member : .found value lexeme ∈ p.scan t) : ∃ later, p later = some (value, lexeme) := by
  suffices ∀ skip, .found value lexeme ∈ p.scanAfter skip t → ∃ later, p later = some (value, lexeme) from
    this 0 member
  intro skip found
  clear member
  induction t generalizing skip with
  | nil => simp [Pattern.scanAfter] at found
  | cons c rest ih =>
    cases skip with
    | succ skip => exact ih skip found
    | zero =>
      simp only [Pattern.scanAfter] at found
      split at found
      · rename_i here
        rcases List.mem_cons.mp found with same | found
        · cases same
          exact ⟨_, here⟩
        · exact ih _ found
      · rcases List.mem_cons.mp found with same | found
        · cases same
        · exact ih _ found

namespace Markup

open Text

theorem span?_sound {opening closing : String} {t lexeme : Text}
    (found : span? opening closing t = some lexeme) :
    ∃ inside rest, lexeme = opening.toList ++ inside ++ closing.toList ∧ t = lexeme ++ rest := by
  obtain ⟨body, opened, found⟩ := Option.bind_eq_some_iff.mp found
  obtain ⟨⟨inside, after⟩, closed, same⟩ := Option.bind_eq_some_iff.mp found
  cases same
  refine ⟨inside, after, rfl, ?_⟩
  rw [after?_eq_some.mp opened, cutAtText?_sound closed]
  simp

theorem span?_append {opening closing : String} {t lexeme : Text}
    (found : span? opening closing t = some lexeme) (other : Text) :
    span? opening closing (lexeme ++ other) = some lexeme := by
  obtain ⟨body, opened, found⟩ := Option.bind_eq_some_iff.mp found
  obtain ⟨⟨inside, after⟩, closed, same⟩ := Option.bind_eq_some_iff.mp found
  cases same
  have cut := cutAtText?_append closed other
  unfold span?
  rw [show opening.toList ++ inside ++ closing.toList ++ other =
    opening.toList ++ (inside ++ closing.toList ++ other) by simp, after?_append]
  change ((cutAtText? closing.toList (inside ++ closing.toList ++ other)).bind _) = _
  rw [cut]
  rfl

theorem span?_eq_none {opening closing : String} {t : Text} (absent : ¬ opening.toList <+: t) :
    span? opening closing t = none := by
  unfold span?
  rw [after?_eq_none.mpr absent]
  rfl

inductive TokenText : Token → Text → Prop
  | comment {lexeme : Text} (text : span? "<!--" "-->" lexeme = some lexeme) : TokenText .comment lexeme
  | characterData {lexeme : Text} (text : span? "<![CDATA[" "]]>" lexeme = some lexeme) :
      TokenText .characterData lexeme
  | instruction {lexeme : Text} (text : span? "<?" "?>" lexeme = some lexeme) :
      TokenText .instruction lexeme
  | declaration {lexeme : Text} (text : span? "<!" ">" lexeme = some lexeme) :
      TokenText .declaration lexeme
  | tag {tag : Tag} (legible : tag.Legible) : TokenText (.tag tag) tag.render

/-- No end further on makes the token a comment or character data. -/
def Sealed : Token → Text → Prop
  | .declaration, lexeme => ¬ "<!--".toList <+: lexeme ∧ ¬ "<![CDATA[".toList <+: lexeme
  | _, _ => True

theorem span?_self {opening closing : String} {t lexeme : Text}
    (found : span? opening closing t = some lexeme) : span? opening closing lexeme = some lexeme := by
  have alone := span?_append found []
  rwa [List.append_nil] at alone

theorem token_sound {t lexeme : Text} {tok : Token} (found : token t = some (tok, lexeme)) :
    TokenText tok lexeme ∧ ∃ rest, t = lexeme ++ rest := by
  have span {opening closing : String} {lexeme : Text} (read : span? opening closing t = some lexeme) :
      ∃ rest, t = lexeme ++ rest := by
    obtain ⟨_, rest, _, cut⟩ := span?_sound read
    exact ⟨rest, cut⟩
  unfold token at found
  split at found
  · split at found
    · rename_i read
      cases found
      exact ⟨.comment (span?_self read), span read⟩
    · split at found
      · rename_i read
        cases found
        exact ⟨.characterData (span?_self read), span read⟩
      · split at found
        · rename_i read
          cases found
          exact ⟨.instruction (span?_self read), span read⟩
        · split at found
          · rename_i read
            cases found
            exact ⟨.declaration (span?_self read), span read⟩
          · obtain ⟨⟨tag, rest⟩, read, same⟩ := Option.map_eq_some_iff.mp found
            cases same
            obtain ⟨legible, cut⟩ := Tag.read?_sound read
            exact ⟨.tag legible, rest, cut⟩
  · cases found

theorem TokenText.starts {tok : Token} {lexeme : Text} (text : TokenText tok lexeme) :
    ∃ tail, lexeme = '<' :: tail := by
  have span {opening : String} {closing : String} {tail : Text} (shape : opening.toList = '<' :: tail)
      (read : span? opening closing lexeme = some lexeme) : ∃ tail, lexeme = '<' :: tail := by
    obtain ⟨inside, _, whole, _⟩ := span?_sound read
    rw [shape] at whole
    exact ⟨_, whole⟩
  cases text with
  | comment read => exact span rfl read
  | characterData read => exact span rfl read
  | instruction read => exact span rfl read
  | declaration read => exact span rfl read
  | @tag tag => exact ⟨_, rfl⟩

theorem token_faithful : token.Faithful := by
  intro t tok lexeme found
  obtain ⟨text, cut⟩ := token_sound found
  obtain ⟨tail, shape⟩ := text.starts
  exact ⟨by simp [shape], cut⟩

theorem not_prefix_of_apart {mark t : Text} (other : Text) (apart : ¬ mark <+: other ∧ ¬ other <+: mark)
    (stands : mark <+: t) : ¬ other <+: t := by
  intro stands'
  rcases List.prefix_or_prefix_of_prefix stands stands' with inner | inner
  · exact apart.1 inner
  · exact apart.2 inner

theorem opening_prefix {opening closing : String} {lexeme : Text}
    (text : span? opening closing lexeme = some lexeme) (rest : Text) : opening.toList <+: lexeme ++ rest := by
  obtain ⟨inside, _, whole, _⟩ := span?_sound text
  rw [whole]
  exact ⟨inside ++ closing.toList ++ rest, by simp⟩

theorem not_prefix_append {mark lexeme : Text} (absent : ¬ mark <+: lexeme)
    (text : span? "<!" ">" lexeme = some lexeme) (noEnd : '>' ∉ mark) (rest : Text) :
    ¬ mark <+: lexeme ++ rest := by
  intro stands
  rcases List.prefix_or_prefix_of_prefix stands (List.prefix_append lexeme rest) with inner | inner
  · exact absent inner
  · obtain ⟨inside, _, whole, _⟩ := span?_sound text
    refine noEnd (inner.subset ?_)
    rw [whole]
    simp

theorem letter_not_prefix {opening : Text} {second : Char} {mark : Text} (shape : opening = '<' :: second :: mark)
    (other : isAsciiLetter second = false) {tag : Tag} (legible : tag.Legible) (rest : Text) :
    ¬ opening <+: tag.render ++ rest := by
  rw [shape]
  rintro ⟨after, same⟩
  obtain ⟨c, name, shape, letter, -⟩ := legible.name
  rw [Tag.render_append legible.added, shape] at same
  have : second = c := by simpa using (List.cons.inj (List.cons.inj same).2).1
  rw [this, letter] at other
  cases other

theorem token_complete {tok : Token} {lexeme : Text} (text : TokenText tok lexeme)
    (isSealed : Sealed tok lexeme) (rest : Text) : token (lexeme ++ rest) = some (tok, lexeme) := by
  obtain ⟨tail, shape⟩ := text.starts
  have start : lexeme ++ rest = '<' :: (tail ++ rest) := by rw [shape, List.cons_append]
  unfold token
  split
  · cases text with
    | comment text => rw [span?_append text]
    | characterData text =>
      have stands := opening_prefix text rest
      rw [span?_eq_none (not_prefix_of_apart _ (by decide) stands)]
      simp only [span?_append text]
    | instruction text =>
      have stands := opening_prefix text rest
      rw [span?_eq_none (not_prefix_of_apart _ (by decide) stands)]
      simp only [span?_eq_none (not_prefix_of_apart "<![CDATA[".toList (by decide) stands),
        span?_append text]
    | declaration text =>
      have stands := opening_prefix text rest
      rw [span?_eq_none (not_prefix_append isSealed.1 text (by decide) rest)]
      simp only [span?_eq_none (not_prefix_append isSealed.2 text (by decide) rest),
        span?_eq_none (not_prefix_of_apart "<?".toList (by decide) stands), span?_append text]
    | tag legible =>
      have absent (opening : String) {second : Char} {mark : Text}
          (shape : opening.toList = '<' :: second :: mark) (other : isAsciiLetter second = false) :=
        letter_not_prefix shape other legible rest
      rw [span?_eq_none (absent "<!--" rfl (by decide))]
      simp only [span?_eq_none (absent "<![CDATA[" rfl (by decide)),
        span?_eq_none (absent "<?" rfl (by decide)),
        span?_eq_none (absent "<!" rfl (by decide)),
        Tag.read?_complete legible rest, Option.map_some]
  · rename_i other
    exact absurd start (other _)

theorem token_end (rest : Text) : token ('<' :: '/' :: rest) = none := by
  have absent (opening : String) {second : Char} {mark : Text}
      (shape : opening.toList = '<' :: second :: mark) (apart : second ≠ '/') :
      ¬ opening.toList <+: '<' :: '/' :: rest := by
    rw [shape]
    rintro ⟨after, same⟩
    exact apart (List.cons.inj (List.cons.inj same).2).1
  unfold token
  rw [span?_eq_none (absent "<!--" rfl (by decide))]
  simp only [span?_eq_none (absent "<![CDATA[" rfl (by decide)),
    span?_eq_none (absent "<?" rfl (by decide)),
    span?_eq_none (absent "<!" rfl (by decide))]
  rfl

/-- A document in which tags can be exchanged and nothing else changes its meaning. -/
structure Unambiguous (document : Text) : Prop where
  ends : ∀ after, .plain '<' :: after <:+ token.scan document → (Piece.joined after).head? = some '/'
  whole : ∀ piece ∈ token.scan document, piece.value? = some .declaration →
    ¬ "<!--".toList <+: piece.lexeme ∧ ¬ "<![CDATA[".toList <+: piece.lexeme

instance (document : Text) : Decidable (Unambiguous document) :=
  decidable_of_iff
    ((∀ pieces ∈ (token.scan document).tails, pieces.head? = some (.plain '<') →
        (Piece.joined pieces.tail).head? = some '/') ∧
      ∀ piece ∈ token.scan document, piece.value? = some .declaration →
        ¬ "<!--".toList <+: piece.lexeme ∧ ¬ "<![CDATA[".toList <+: piece.lexeme)
    ⟨fun ⟨ends, whole⟩ => ⟨fun _ last => ends _ ((List.mem_tails _ _).mpr last) rfl, whole⟩, fun unambiguous => by
      refine ⟨fun pieces member first => ?_, unambiguous.whole⟩
      obtain ⟨after, shape⟩ := List.head?_eq_some_iff.mp first
      rw [shape]
      exact unambiguous.ends after (shape ▸ (List.mem_tails _ _).mp member)⟩

inductive Stable : List (Piece Token) → Prop
  | nil : Stable []
  | plain {c : Char} {rest : List (Piece Token)} (ends : c = '<' → (Piece.joined rest).head? = some '/')
      (tail : Stable rest) : Stable (.plain c :: rest)
  | found {tok : Token} {lexeme : Text} {rest : List (Piece Token)} (text : TokenText tok lexeme)
      (isSealed : Sealed tok lexeme) (tail : Stable rest) : Stable (.found tok lexeme :: rest)

theorem Stable.scan_joined {pieces : List (Piece Token)} (stable : Stable pieces) :
    token.scan (Piece.joined pieces) = pieces := by
  induction stable with
  | nil => rfl
  | @plain c rest ends tail ih =>
    have nothing : token (c :: Piece.joined rest) = none := by
      by_cases less : c = '<'
      · obtain ⟨after, shape⟩ := List.head?_eq_some_iff.mp (ends less)
        rw [less, shape]
        exact token_end after
      · unfold token
        split
        · rename_i same
          exact absurd (List.cons.inj same).1 less
        · rfl
    rw [Pattern.joined_cons]
    exact (Pattern.scan_of_none nothing).trans (by rw [ih])
  | @found tok lexeme rest text isSealed tail ih =>
    rw [Pattern.joined_cons]
    exact (Pattern.scan_of_some token_faithful (token_complete text isSealed _) rfl).trans (by rw [ih])

theorem Unambiguous.stable {document : Text} (unambiguous : Unambiguous document) :
    Stable (token.scan document) := by
  have text : ∀ tok lexeme, .found tok lexeme ∈ token.scan document →
      TokenText tok lexeme ∧ Sealed tok lexeme := by
    intro tok lexeme member
    obtain ⟨later, found⟩ := Pattern.match_of_mem_scan member
    refine ⟨(token_sound found).1, ?_⟩
    cases tok with
    | declaration => exact unambiguous.whole _ member rfl
    | _ => exact True.intro
  have ends := unambiguous.ends
  generalize token.scan document = pieces at text ends
  induction pieces with
  | nil => exact .nil
  | cons piece pieces ih =>
    have tail := ih (fun tok lexeme member => text tok lexeme (by simp [member]))
      fun after last => ends after (last.trans (List.suffix_cons piece pieces))
    cases piece with
    | plain c => exact .plain (fun less => ends pieces (less ▸ List.suffix_refl _)) tail
    | found tok lexeme =>
      obtain ⟨text, isSealed⟩ := text tok lexeme (by simp)
      exact .found text isSealed tail

theorem Stable.unambiguous {document : Text} (stable : Stable (token.scan document)) :
    Unambiguous document := by
  constructor
  · generalize token.scan document = pieces at stable
    induction stable with
    | nil =>
      intro after last
      cases List.suffix_nil.mp last
    | @plain c rest ends tail ih =>
      intro after last
      rcases List.suffix_cons_iff.mp last with here | later
      · cases here
        exact ends rfl
      · exact ih after later
    | found text isSealed tail ih =>
      intro after last
      rcases List.suffix_cons_iff.mp last with here | later
      · cases here
      · exact ih after later
  · generalize token.scan document = pieces at stable
    induction stable with
    | nil =>
      intro piece member
      cases member
    | plain ends tail ih =>
      intro piece member isDeclaration
      rcases List.mem_cons.mp member with rfl | later
      · cases isDeclaration
      · exact ih piece later isDeclaration
    | found text isSealed tail ih =>
      intro piece member isDeclaration
      rcases List.mem_cons.mp member with rfl | later
      · cases isDeclaration
        exact isSealed
      · exact ih piece later isDeclaration

def onTag (edit : Tag → Tag) : Piece Token → Piece Token
  | .found (.tag tag) _ => .found (.tag (edit tag)) (edit tag).render
  | piece => piece

theorem Stable.slash_first {pieces : List (Piece Token)} (stable : Stable pieces)
    (slash : (Piece.joined pieces).head? = some '/') : ∃ rest, pieces = .plain '/' :: rest := by
  cases stable with
  | nil => cases slash
  | @plain c rest =>
    cases slash
    exact ⟨rest, rfl⟩
  | @found tok lexeme rest text =>
    obtain ⟨tail, shape⟩ := text.starts
    rw [Pattern.joined_cons, Piece.lexeme, shape] at slash
    cases slash

theorem Stable.map_onTag {pieces : List (Piece Token)} (stable : Stable pieces) {edit : Tag → Tag}
    (keeps : ∀ tag : Tag, tag.Legible → (edit tag).Legible) : Stable (pieces.map (onTag edit)) := by
  induction stable with
  | nil => exact .nil
  | @plain c rest ends tail ih =>
    refine .plain (fun less => ?_) ih
    obtain ⟨after, shape⟩ := tail.slash_first (ends less)
    rw [shape]
    rfl
  | @found tok lexeme rest text isSealed tail ih =>
    cases text with
    | tag legible => exact .found (.tag (keeps _ legible)) True.intro ih
    | comment text => exact .found (.comment text) isSealed ih
    | characterData text => exact .found (.characterData text) isSealed ih
    | instruction text => exact .found (.instruction text) isSealed ih
    | declaration text => exact .found (.declaration text) isSealed ih

def EditReads (edit : Tag → Option Tag) (seen : Tag → Tag) : Prop :=
  ∀ tag : Tag, tag.Legible → match edit tag with
    | some edited => edited.render = (seen tag).render
    | none => seen tag = tag

theorem Stable.mapTags_eq {pieces : List (Piece Token)} (stable : Stable pieces)
    {edit : Tag → Option Tag} {seen : Tag → Tag} (reads : EditReads edit seen) :
    (pieces.flatMap fun piece =>
      match (tag? piece).bind edit with
      | some tag => tag.render
      | none => piece.lexeme) = Piece.joined (pieces.map (onTag seen)) := by
  induction stable with
  | nil => rfl
  | @plain c rest ends tail ih =>
    rw [List.flatMap_cons, List.map_cons, Pattern.joined_cons, ih]
    rfl
  | @found tok lexeme rest text isSealed tail ih =>
    rw [List.flatMap_cons, List.map_cons, Pattern.joined_cons, ih]
    congr 1
    cases text with
    | @tag tag legible =>
      have read := reads tag legible
      simp only [tag?, Option.bind_some, onTag, Piece.lexeme]
      split
      · rename_i edited here
        simpa only [here] using read
      · rename_i here
        rw [here] at read
        rw [show seen tag = tag from read]
    | _ => rfl

/-- After an exchange of tags the scan finds the tags that were put in, and all else as it was. -/
theorem scan_mapTags {document : Text} (unambiguous : Unambiguous document) {edit : Tag → Option Tag}
    {seen : Tag → Tag} (reads : EditReads edit seen)
    (keeps : ∀ tag : Tag, tag.Legible → (seen tag).Legible) :
    token.scan (mapTags edit document) = (token.scan document).map (onTag seen) := by
  have stable := unambiguous.stable
  have rewritten : mapTags edit document = Piece.joined ((token.scan document).map (onTag seen)) :=
    stable.mapTags_eq reads
  rw [rewritten]
  exact (stable.map_onTag keeps).scan_joined

theorem Unambiguous.exchanged {document result : Text} (unambiguous : Unambiguous document) {edit : Tag → Tag}
    (keeps : ∀ tag : Tag, tag.Legible → (edit tag).Legible)
    (scan : token.scan result = (token.scan document).map (onTag edit)) : Unambiguous result := by
  apply Stable.unambiguous
  rw [scan]
  exact unambiguous.stable.map_onTag keeps

end Markup
end Flipbook
