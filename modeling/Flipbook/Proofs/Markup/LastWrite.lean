import Flipbook.Proofs.Markup.Steps

namespace Flipbook.Markup

open Text

/-- An unambiguous document without a tag that names an attribute twice. -/
structure LexicallyClean (document : Text) : Prop extends Unambiguous document where
  distinct : ∀ tag ∈ tags document, (tag.attributes.map (·.name)).Nodup

instance (document : Text) : Decidable (LexicallyClean document) :=
  decidable_of_iff
    (Unambiguous document ∧ ∀ tag ∈ tags document, (tag.attributes.map (·.name)).Nodup)
    ⟨fun ⟨unambiguous, distinct⟩ => ⟨unambiguous, distinct⟩, fun clean => ⟨clean.toUnambiguous, clean.distinct⟩⟩

instance (step : Step) : Decidable step.Writable :=
  inferInstanceAs (Decidable (∀ name ∈ step.names,
    WritableName name ∧ name ≠ "id".toList ∧ name ≠ "class".toList))

def outline : Piece Token → Piece Token
  | .found (.tag tag) _ => .found (.tag { tag with attributes := [], added := [] }) []
  | piece => piece

/-- The result has the tokens of the document, and in each tag the last values that the steps wrote. -/
structure ShowsLastWrites (steps : List (Step × List (Text × Text))) (document result : Text) : Prop where
  outlines : (token.scan result).map outline = (token.scan document).map outline
  values : ∀ (k : Nat) (source : Tag), (tags document)[k]? = some source →
    ∃ target : Tag, (tags result)[k]? = some target ∧
      ∀ name, target.attributeMap.get? name =
        ((lastWritten? (written steps source) name).map escape).or (source.attributeMap.get? name)

theorem Tag.putAll_bare (tag : Tag) (values : List (Text × Text)) :
    ({ tag.putAll values with attributes := [], added := [] } : Tag) =
      { tag with attributes := [], added := [] } := by
  rw [Tag.putAll_eq]

theorem outline_onTag (values : Tag → List (Text × Text)) (piece : Piece Token) :
    outline (onTag (fun tag => tag.putAll (values tag)) piece) = outline piece := by
  cases piece with
  | plain c => rfl
  | found tok lexeme =>
    cases tok with
    | tag tag =>
      simp only [onTag, outline]
      rw [Tag.putAll_bare]
    | _ => rfl

theorem filterMap_tag?_onTag (edit : Tag → Tag) (pieces : List (Piece Token)) :
    (pieces.map (onTag edit)).filterMap tag? = (pieces.filterMap tag?).map edit := by
  rw [List.filterMap_map, List.map_filterMap]
  congr 1
  funext piece
  cases piece with
  | plain c => rfl
  | found tok lexeme => cases tok <;> rfl

theorem showsLastWrites_of_scan {document result : Text} (clean : LexicallyClean document)
    {steps : List (Step × List (Text × Text))}
    (scan : token.scan result = (token.scan document).map (onTag fun tag => tag.putAll (written steps tag))) :
    ShowsLastWrites steps document result where
  outlines := by
    rw [scan, List.map_map]
    refine List.map_congr_left fun piece _ => ?_
    exact outline_onTag (written steps) piece
  values := by
    intro k source place
    refine ⟨source.putAll (written steps source), ?_, ?_⟩
    · unfold tags at place ⊢
      rw [scan, filterMap_tag?_onTag, List.getElem?_map, place]
      rfl
    · have member : source ∈ tags document := List.mem_of_getElem? place
      exact attributeMap_putAll (clean.distinct source member) (legible_of_mem_tags member).added _

/-- Rewriting a clean document step after step fails where the values of a step cannot be computed, and
    else writes into each tag what the last step that selects it in the original document writes. -/
theorem presentAll_last_write (canvas : Amount) {document : Text} (clean : LexicallyClean document)
    {steps : List Step} (writable : ∀ step ∈ steps, step.Writable) :
    match steps.mapM (Step.values canvas) with
    | .error error => presentAll canvas document steps = .error error
    | .ok values => ∃ result, presentAll canvas document steps = .ok result ∧
        ShowsLastWrites (steps.zip values) document result := by
  split
  · rename_i error failed
    exact presentAll_error failed document
  · rename_i values computed
    obtain ⟨result, run, scan⟩ := scan_presentAll clean.toUnambiguous writable computed
    exact ⟨result, run, showsLastWrites_of_scan clean scan⟩

def face : Text := "<!-- a > b --><g class=\"eye\"><rect fill = red class='x eye'/></g>".toList

def blink : List Step :=
  [⟨".eye".toList, [("strokeWidth".toList, "2\"".toList), ("fill".toList, "a<b".toList)]⟩,
    ⟨"rect".toList, [("fill".toList, "blue".toList)]⟩]

theorem presentAll_last_write_face :
    LexicallyClean face ∧ (∀ step ∈ blink, step.Writable) ∧
      ∃ result, presentAll (.whole 512) face blink = .ok result ∧
        ShowsLastWrites
          (blink.zip [[("stroke-width".toList, "2\"".toList), ("fill".toList, "a<b".toList)],
            [("fill".toList, "blue".toList)]])
          face result := by
  have clean : LexicallyClean face := by decide +kernel
  have writable : ∀ step ∈ blink, step.Writable := by decide +kernel
  have computed : blink.mapM (Step.values (.whole 512)) =
      .ok [[("stroke-width".toList, "2\"".toList), ("fill".toList, "a<b".toList)],
        [("fill".toList, "blue".toList)]] := by
    decide +kernel
  have run := presentAll_last_write (.whole 512) clean writable
  rw [computed] at run
  exact ⟨clean, writable, run⟩

def farTurn : Step :=
  ⟨".x".toList, [("transform".toList, "scale(2)".toList), ("transform-origin".toList, "1e400 0".toList)]⟩

theorem presentAll_farTurn :
    LexicallyClean "<rect/>".toList ∧ (∀ step ∈ [farTurn], step.Writable) ∧
      ¬ ∃ result, presentAll (.whole 512) "<rect/>".toList [farTurn] = .ok result := by
  refine ⟨by decide +kernel, by decide +kernel, ?_⟩
  rintro ⟨result, run⟩
  have failed : presentAll (.whole 512) "<rect/>".toList [farTurn] = .error .tooLarge := by
    decide +kernel
  rw [failed] at run
  cases run

end Flipbook.Markup
