import Flipbook.Markup.Presentation
import Flipbook.Proofs.Markup.Setting
import Flipbook.Proofs.Markup.Tokens
import Flipbook.Proofs.Outcome

namespace Flipbook.Markup

open Text Css

/-- One rewriting: the properties for the elements that a selector matches. -/
structure Step where
  selector : Text
  properties : Properties

namespace Step

def selects (step : Step) (tag : Tag) : Bool := (Selector.ofText? step.selector).any (·.matchesTag tag)

def rewrites (step : Step) (tag : Tag) : Bool := !step.properties.isEmpty && step.selects tag

def names (step : Step) : List Text :=
  if (Selector.ofText? step.selector).isSome then
    (step.properties.filter (·.1 ≠ originProperty)).map fun property => attributeName property.1
  else []

def values (canvas : Amount) (step : Step) : Except NumberError (List (Text × Text)) :=
  if (Selector.ofText? step.selector).isSome then presentation canvas step.properties else .ok []

/-- Attributes that read back and that no selector looks at. -/
def Writable (step : Step) : Prop :=
  ∀ name ∈ step.names, WritableName name ∧ name ≠ "id".toList ∧ name ≠ "class".toList

end Step

def presentAll (canvas : Amount) (document : Text) (steps : List Step) : Except NumberError Text :=
  steps.foldlM (fun document step => present canvas document step.selector step.properties) document

def written (steps : List (Step × List (Text × Text))) (tag : Tag) : List (Text × Text) :=
  steps.flatMap fun (step, values) => if step.selects tag then values else []

theorem names_presentation {canvas : Amount} {properties : Properties} {values : List (Text × Text)}
    (computed : presentation canvas properties = .ok values) :
    values.map (·.1) =
      (properties.filter (·.1 ≠ originProperty)).map fun property => attributeName property.1 := by
  refine mapM_fst ?_ computed
  rintro ⟨property, value⟩ pair entry
  dsimp only at entry
  split at entry
  · obtain ⟨list, -, entry⟩ := bind_eq_ok entry
    obtain ⟨whole, -, entry⟩ := bind_eq_ok entry
    cases entry
    rfl
  · cases entry
    rfl

theorem Step.names_values {canvas : Amount} {step : Step} {values : List (Text × Text)}
    (computed : step.values canvas = .ok values) : values.map (·.1) = step.names := by
  unfold Step.values at computed
  unfold Step.names
  split at computed
  · rename_i understood
    rw [if_pos understood]
    exact names_presentation computed
  · rename_i unknown
    cases computed
    rw [if_neg unknown]
    rfl

theorem mapTags_none (document : Text) : mapTags (fun _ => none) document = document := by
  have whole : mapTags (fun _ => none) document = Piece.joined (token.scan document) := by
    unfold mapTags Piece.joined
    congr 1
    funext piece
    cases tag? piece <;> rfl
  rw [whole, Pattern.joined_scan token_faithful]

theorem tag_of_mem_scan {document lexeme : Text} {tag : Tag}
    (member : .found (.tag tag) lexeme ∈ token.scan document) : tag.Legible ∧ lexeme = tag.render := by
  obtain ⟨later, found⟩ := Pattern.match_of_mem_scan member
  cases (token_sound found).1 with
  | tag legible => exact ⟨legible, rfl⟩

theorem legible_of_mem_tags {document : Text} {tag : Tag} (member : tag ∈ tags document) :
    tag.Legible := by
  obtain ⟨piece, inside, isTag⟩ := List.mem_filterMap.mp member
  cases piece with
  | plain c => cases isTag
  | found tok lexeme =>
    cases tok with
    | tag _ =>
      cases isTag
      exact (tag_of_mem_scan inside).1
    | _ => cases isTag

theorem present_eq (canvas : Amount) (document : Text) (step : Step) :
    present canvas document step.selector step.properties =
      (step.values canvas).map fun values =>
        mapTags (fun tag => if step.rewrites tag then some (tag.setAll values) else none) document := by
  unfold present Step.values Step.rewrites Step.selects
  cases understood : Selector.ofText? step.selector with
  | none =>
    simp only [Option.any_none, Bool.and_false, Bool.false_eq_true, ↓reduceIte, Option.isSome_none, Except.map,
      mapTags_none]
    rfl
  | some selector =>
    cases empty : step.properties.isEmpty with
    | true =>
      rw [List.isEmpty_iff.mp empty]
      simp only [Bool.not_true, Bool.false_and, Bool.false_eq_true, ↓reduceIte, mapTags_none]
      rfl
    | false => simp only [Option.any_some, Option.isSome_some, Bool.not_false, Bool.true_and, ↓reduceIte]; rfl

def stepTag (step : Step) (values : List (Text × Text)) (tag : Tag) : Tag :=
  if step.selects tag then tag.putAll values else tag

theorem stepTag_eq (step : Step) (values : List (Text × Text)) (tag : Tag) :
    stepTag step values tag = tag.putAll (if step.selects tag then values else []) := by
  unfold stepTag
  split <;> rfl

theorem name_mem_of_values {canvas : Amount} {step : Step} {values : List (Text × Text)}
    (computed : step.values canvas = .ok values) {entry : Text × Text} (member : entry ∈ values) :
    entry.1 ∈ step.names := by
  rw [← Step.names_values computed]
  exact List.mem_map_of_mem member

theorem stepTag_legible {canvas : Amount} {step : Step} (writable : ∀ name ∈ step.names, WritableName name)
    {values : List (Text × Text)} (computed : step.values canvas = .ok values) {tag : Tag}
    (legible : tag.Legible) : (stepTag step values tag).Legible := by
  rw [stepTag_eq]
  refine legible.putAll fun entry member => ?_
  split at member
  · exact writable entry.1 (name_mem_of_values computed member)
  · cases member

theorem stepTag_of_not_rewrites {canvas : Amount} {step : Step} {values : List (Text × Text)}
    (computed : step.values canvas = .ok values) {tag : Tag} (passed : step.rewrites tag = false) :
    stepTag step values tag = tag := by
  unfold stepTag
  split
  · rename_i selected
    rw [Step.rewrites, selected, Bool.and_true, Bool.not_eq_false'] at passed
    unfold Step.values at computed
    rw [List.isEmpty_iff.mp passed] at computed
    split at computed
    · cases computed
      rfl
    · cases computed
      rfl
  · rfl

theorem scan_present {canvas : Amount} {document : Text} (unambiguous : Unambiguous document) {step : Step}
    (writable : ∀ name ∈ step.names, WritableName name) {values : List (Text × Text)} (computed : step.values canvas = .ok values) :
    ∃ result, present canvas document step.selector step.properties = .ok result ∧
      token.scan result = (token.scan document).map (onTag (stepTag step values)) := by
  refine ⟨_, by rw [present_eq, computed]; rfl, ?_⟩
  refine scan_mapTags unambiguous ?_ ?_
  · intro tag legible
    cases written : step.rewrites tag with
    | true =>
      have selected : step.selects tag := (Bool.and_eq_true_iff.mp written).2
      simp only [written, ↓reduceIte, stepTag, selected]
      exact Tag.render_setAll legible.added values
    | false =>
      simp only [written, Bool.false_eq_true, ↓reduceIte]
      exact stepTag_of_not_rewrites computed written
  · intro tag legible
    exact stepTag_legible writable computed legible

theorem attributeMap_putAll_of_avoids {name : Text} {values : List (Text × Text)}
    (avoids : ∀ entry ∈ values, entry.1 ≠ name) {tag : Tag} (noneAdded : tag.added = []) :
    (tag.putAll values).attributeMap.get? name = tag.attributeMap.get? name := by
  induction values generalizing tag with
  | nil => rfl
  | cons entry values ih =>
    obtain ⟨known, value⟩ := entry
    calc
      ((tag.put known value).putAll values).attributeMap.get? name
        = (tag.put known value).attributeMap.get? name :=
          ih (fun other member => avoids other (by simp [member])) noneAdded
      _ = tag.attributeMap.get? name :=
          attributeMap_put_of_ne (avoids (known, value) (by simp)) noneAdded value

theorem matchesTag_congr (selector : Selector) {tag other : Tag} (name : tag.name = other.name)
    (id : tag.attributeMap.get? "id".toList = other.attributeMap.get? "id".toList)
    (classes : tag.attributeMap.get? "class".toList = other.attributeMap.get? "class".toList) :
    selector.matchesTag tag = selector.matchesTag other := by
  unfold Selector.matchesTag Selector.matches
  rw [name, id, classes]

theorem Step.selects_putAll (step : Step) {values : List (Text × Text)}
    (avoids : ∀ entry ∈ values, entry.1 ≠ "id".toList ∧ entry.1 ≠ "class".toList) {tag : Tag}
    (noneAdded : tag.added = []) : step.selects (tag.putAll values) = step.selects tag := by
  unfold Step.selects
  congr 1
  funext selector
  refine matchesTag_congr selector (tag.putAll_name values) ?_ ?_
  · exact attributeMap_putAll_of_avoids (fun entry member => (avoids entry member).1) noneAdded
  · exact attributeMap_putAll_of_avoids (fun entry member => (avoids entry member).2) noneAdded

theorem written_putAll (steps : List (Step × List (Text × Text))) {values : List (Text × Text)}
    (avoids : ∀ entry ∈ values, entry.1 ≠ "id".toList ∧ entry.1 ≠ "class".toList) {tag : Tag}
    (noneAdded : tag.added = []) : written steps (tag.putAll values) = written steps tag := by
  unfold written
  congr 1
  funext ⟨step, stepValues⟩
  dsimp only
  rw [step.selects_putAll avoids noneAdded]

theorem onTag_onTag (first second : Tag → Tag) (piece : Piece Token) :
    onTag second (onTag first piece) = onTag (second ∘ first) piece := by
  cases piece with
  | plain c => rfl
  | found tok lexeme => cases tok <;> rfl

theorem map_onTag_congr {document : Text} {edit other : Tag → Tag}
    (same : ∀ tag : Tag, tag.Legible → edit tag = other tag) :
    (token.scan document).map (onTag edit) = (token.scan document).map (onTag other) := by
  refine List.map_congr_left fun piece member => ?_
  cases piece with
  | plain c => rfl
  | found tok lexeme =>
    cases tok with
    | tag tag => rw [onTag, onTag, same tag (tag_of_mem_scan member).1]
    | _ => rfl

theorem map_onTag_id (document : Text) : (token.scan document).map (onTag id) = token.scan document := by
  conv_rhs => rw [← List.map_id (token.scan document)]
  refine List.map_congr_left fun piece member => ?_
  cases piece with
  | plain c => rfl
  | found tok lexeme =>
    cases tok with
    | tag tag =>
      rw [(tag_of_mem_scan member).2]
      rfl
    | _ => rfl

theorem presentAll_error {canvas : Amount} {steps : List Step} {error : NumberError}
    (failed : steps.mapM (Step.values canvas) = .error error) (document : Text) :
    presentAll canvas document steps = .error error := by
  induction steps generalizing document with
  | nil => cases failed
  | cons step steps ih =>
    rw [List.mapM_cons] at failed
    rw [presentAll, List.foldlM_cons, present_eq]
    cases first : step.values canvas with
    | error e =>
      rw [first] at failed
      cases failed
      rfl
    | ok values =>
      cases others : steps.mapM (Step.values canvas) with
      | error e =>
        rw [first, others] at failed
        cases failed
        exact ih others _
      | ok rest =>
        rw [first, others] at failed
        cases failed

/-- The pieces after a run of the steps are those before it, each tag with all that the steps wrote
    into it. -/
theorem scan_presentAll {canvas : Amount} {document : Text} (unambiguous : Unambiguous document)
    {steps : List Step} (writable : ∀ step ∈ steps, step.Writable) {values : List (List (Text × Text))}
    (computed : steps.mapM (Step.values canvas) = .ok values) :
    ∃ result, presentAll canvas document steps = .ok result ∧
      token.scan result =
        (token.scan document).map (onTag fun tag => tag.putAll (written (steps.zip values) tag)) := by
  induction steps generalizing document values with
  | nil =>
    cases computed
    exact ⟨document, rfl, (map_onTag_id document).symm⟩
  | cons step steps ih =>
    rw [List.mapM_cons] at computed
    cases first : step.values canvas with
    | error e =>
      rw [first] at computed
      cases computed
    | ok stepValues =>
      cases others : steps.mapM (Step.values canvas) with
      | error e =>
        rw [first, others] at computed
        cases computed
      | ok rest =>
        rw [first, others] at computed
        cases computed
        have writableStep := writable step (by simp)
        have writableNames : ∀ name ∈ step.names, WritableName name := fun name known => (writableStep name known).1
        obtain ⟨middle, presented, middleScan⟩ := scan_present unambiguous writableNames first
        have keeps (tag : Tag) (legible : tag.Legible) : (stepTag step stepValues tag).Legible :=
          stepTag_legible writableNames first legible
        obtain ⟨result, run, resultScan⟩ := ih (unambiguous.exchanged keeps middleScan)
          (fun other member => writable other (by simp [member])) others
        refine ⟨result, ?_, ?_⟩
        · rw [presentAll, List.foldlM_cons, presented]
          exact run
        · rw [resultScan, middleScan, List.map_map]
          simp only [Function.comp_def, onTag_onTag]
          refine map_onTag_congr fun tag legible => ?_
          -- What the later steps write does not depend on what this one wrote.
          have avoids (entry : Text × Text)
              (member : entry ∈ if step.selects tag then stepValues else []) :
              entry.1 ≠ "id".toList ∧ entry.1 ≠ "class".toList := by
            split at member
            · exact (writableStep entry.1 (name_mem_of_values first member)).2
            · cases member
          rw [stepTag_eq, written_putAll _ avoids legible.added, ← Tag.putAll_append]
          rfl

end Flipbook.Markup
