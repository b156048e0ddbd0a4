import Flipbook.Proofs.Markup.LastWrite

namespace Flipbook.Markup

open Text

theorem putAttribute_putAttribute (name value other : Text) (attributes : List Attribute) :
    putAttribute name value (putAttribute name other attributes) = putAttribute name value attributes := by
  induction attributes with
  | nil => simp [putAttribute]
  | cons a attributes ih =>
    by_cases same : a.name = name
    · simp [putAttribute, same]
    · simp [putAttribute, same, ih]

theorem putAttribute_comm {name other : Text} (different : name ≠ other) (value value' : Text)
    {attributes : List Attribute} (known : name ∈ attributes.map (·.name)) :
    putAttribute name value (putAttribute other value' attributes) =
      putAttribute other value' (putAttribute name value attributes) := by
  induction attributes with
  | nil => cases known
  | cons a attributes ih =>
    by_cases same : a.name = name
    · simp [putAttribute, same, different]
    · have later : name ∈ attributes.map (·.name) := by simpa [Ne.symm same] using known
      by_cases same' : a.name = other
      · simp [putAttribute, same', Ne.symm different]
      · simp [putAttribute, same, same', ih later]

theorem mem_names_putAttribute (name value : Text) (attributes : List Attribute) :
    name ∈ (putAttribute name value attributes).map (·.name) := by
  rw [names_putAttribute]
  split
  · assumption
  · exact List.mem_append_right _ List.mem_cons_self

theorem mem_names_putAttribute_of_mem {name other value : Text} {attributes : List Attribute}
    (known : name ∈ attributes.map (·.name)) : name ∈ (putAttribute other value attributes).map (·.name) := by
  rw [names_putAttribute]
  split
  · exact known
  · exact List.mem_append_left _ known

namespace Tag

theorem put_put (tag : Tag) (name value other : Text) : (tag.put name other).put name value = tag.put name value :=
  congrArg (fun attributes => { tag with attributes }) (putAttribute_putAttribute name value other tag.attributes)

theorem put_comm {tag : Tag} {name other : Text} (different : name ≠ other) (value value' : Text)
    (known : name ∈ tag.attributes.map (·.name)) :
    (tag.put other value').put name value = (tag.put name value).put other value' :=
  congrArg (fun attributes => { tag with attributes }) (putAttribute_comm different value value' known)

theorem putAll_put_of_mem {tag : Tag} {name value : Text} {values : List (Text × Text)}
    (known : name ∈ tag.attributes.map (·.name)) (later : name ∈ values.map (·.1)) :
    (tag.put name value).putAll values = tag.putAll values := by
  induction values generalizing tag with
  | nil => cases later
  | cons entry values ih =>
    obtain ⟨other, value'⟩ := entry
    rw [putAll_cons, putAll_cons]
    by_cases same : name = other
    · rw [← same, put_put]
    · have later : name ∈ values.map (·.1) := (List.mem_cons.mp later).resolve_left same
      rw [← put_comm same value value' known]
      exact ih (mem_names_putAttribute_of_mem known) later

theorem putAll_put_of_not_mem {tag : Tag} {name value : Text} {values : List (Text × Text)}
    (known : name ∈ tag.attributes.map (·.name)) (absent : name ∉ values.map (·.1)) :
    (tag.put name value).putAll values = (tag.putAll values).put name value := by
  induction values generalizing tag with
  | nil => rfl
  | cons entry values ih =>
    obtain ⟨other, value'⟩ := entry
    rw [List.map_cons, List.mem_cons, not_or] at absent
    rw [putAll_cons, putAll_cons, ← put_comm absent.1 value value' known]
    exact ih (mem_names_putAttribute_of_mem known) absent.2

theorem mem_names_putAll {tag : Tag} {name : Text} (known : name ∈ tag.attributes.map (·.name))
    (values : List (Text × Text)) : name ∈ (tag.putAll values).attributes.map (·.name) := by
  induction values generalizing tag with
  | nil => exact known
  | cons entry values ih => exact ih (mem_names_putAttribute_of_mem known)

theorem putAll_putAll (tag : Tag) (values : List (Text × Text)) :
    (tag.putAll values).putAll values = tag.putAll values := by
  induction values generalizing tag with
  | nil => rfl
  | cons entry values ih =>
    obtain ⟨name, value⟩ := entry
    have known : name ∈ (tag.put name value).attributes.map (·.name) := mem_names_putAttribute name value _
    rw [putAll_cons, putAll_cons]
    by_cases later : name ∈ values.map (·.1)
    · calc
        (((tag.put name value).putAll values).put name value).putAll values
          = ((tag.put name value).putAll values).putAll values :=
            putAll_put_of_mem (mem_names_putAll known values) later
        _ = (tag.put name value).putAll values := ih _
    · calc
        (((tag.put name value).putAll values).put name value).putAll values
          = (((tag.put name value).put name value).putAll values).putAll values := by
            rw [← putAll_put_of_not_mem known later]
        _ = (tag.put name value).putAll values := by rw [put_put, ih]

end Tag

theorem stepTag_stepTag (step : Step) (values : List (Text × Text)) (tag : Tag) :
    stepTag step values (stepTag step values tag) = stepTag step values tag := by
  by_cases selected : step.selects tag
  · have first : stepTag step values tag = tag.putAll values := if_pos selected
    rw [first]
    unfold stepTag
    split
    · exact tag.putAll_putAll values
    · rfl
  · have first : stepTag step values tag = tag := if_neg selected
    rw [first, first]

theorem eq_of_scan_eq {document other : Text} (same : token.scan document = token.scan other) :
    document = other := by
  rw [← Pattern.joined_scan token_faithful document, same, Pattern.joined_scan token_faithful]

/-- A rewriting fails where its values cannot be computed. Else its result is the document with the values in
    the tags that it selects, and the same rewriting of the result gives that result again. -/
theorem present_present (canvas : Amount) {document : Text} (unambiguous : Unambiguous document) {step : Step}
    (writable : ∀ name ∈ step.names, WritableName name) :
    match step.values canvas with
    | .error error => present canvas document step.selector step.properties = .error error
    | .ok values => ∃ result, present canvas document step.selector step.properties = .ok result ∧
        token.scan result = (token.scan document).map (onTag (stepTag step values)) ∧
        present canvas result step.selector step.properties = .ok result := by
  split
  · rename_i error failed
    rw [present_eq, failed]
    rfl
  · rename_i values computed
    have keeps (tag : Tag) (legible : tag.Legible) : (stepTag step values tag).Legible :=
      stepTag_legible writable computed legible
    obtain ⟨result, presented, scan⟩ := scan_present unambiguous writable computed
    obtain ⟨again, presented', scan'⟩ := scan_present (unambiguous.exchanged keeps scan) writable computed
    have same : again = result := by
      apply eq_of_scan_eq
      rw [scan', scan, List.map_map]
      apply List.map_congr_left
      intro piece _
      rw [Function.comp_apply, onTag_onTag]
      exact congrArg (onTag · piece) (funext (stepTag_stepTag step values))
    rw [same] at presented'
    exact ⟨result, presented, scan, presented'⟩

def twice : Text := "<!-- < --><g class=\"a\" fill=red class='x y'/><g class=\"y\"></g>".toList

def declass : Step where
  selector := ".y".toList
  properties := [("strokeWidth".toList, "1".toList), ("class".toList, "a&b".toList), ("id".toList, "k".toList),
    ("stroke-width".toList, "2".toList)]

theorem present_present_declass : Unambiguous twice ∧ (∀ name ∈ declass.names, WritableName name) ∧
    ∃ values, declass.values (.whole 512) = .ok values ∧
      ∃ result, present (.whole 512) twice declass.selector declass.properties = .ok result ∧
        token.scan result = (token.scan twice).map (onTag (stepTag declass values)) ∧
        present (.whole 512) result declass.selector declass.properties = .ok result := by
  have unambiguous : Unambiguous twice := by decide +kernel
  have writable : ∀ name ∈ declass.names, WritableName name := by decide +kernel
  have computed : declass.values (.whole 512) = .ok [("stroke-width".toList, "1".toList),
      ("class".toList, "a&b".toList), ("id".toList, "k".toList), ("stroke-width".toList, "2".toList)] := by
    decide +kernel
  have holds := present_present (.whole 512) unambiguous writable
  rw [computed] at holds
  exact ⟨unambiguous, writable, _, computed, holds⟩

example : present (.whole 512) twice declass.selector declass.properties =
    .ok ("<!-- < --><g class=\"a&amp;b\" fill=red class='x y' stroke-width=\"2\" id=\"k\"/>" ++
      "<g class=\"a&amp;b\" stroke-width=\"2\" id=\"k\"></g>").toList := by
  decide +kernel

end Flipbook.Markup
