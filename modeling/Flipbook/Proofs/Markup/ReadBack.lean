import Flipbook.Proofs.Markup.Steps

namespace Flipbook.Markup

open Text

theorem scan_render {tag : Tag} (legible : tag.Legible) :
    token.scan tag.render = [.found (.tag tag) tag.render] := by
  have read := token_complete (.tag legible) True.intro []
  rw [List.append_nil] at read
  exact Pattern.scan_of_some token_faithful read (List.append_nil tag.render).symm

/-- The attributes by name, with the value that each has as it is written; a bare name has none. -/
def Tag.entries (tag : Tag) : Table (Option Text) := tag.attributes.map fun a => (a.name, a.value)

def escaped (values : List (Text × Text)) : Table (Option Text) :=
  values.map fun entry => (entry.1, some (escape entry.2))

theorem Tag.names_entries (tag : Tag) : tag.entries.names = tag.attributes.map (·.name) := List.map_map

theorem names_escaped (values : List (Text × Text)) : (escaped values).names = values.map (·.1) := List.map_map

theorem entries_putAttribute (name value : Text) (attributes : List Attribute) :
    (putAttribute name value attributes).map (fun a => (a.name, a.value)) =
      Table.insert (attributes.map fun a => (a.name, a.value)) name (some (escape value)) := by
  induction attributes with
  | nil => rfl
  | cons a attributes ih =>
    unfold putAttribute
    rw [List.map_cons, Table.insert]
    split
    · rename_i same
      rw [List.map_cons, same]
    · rw [List.map_cons, ih]

theorem Tag.entries_putAll (tag : Tag) (values : List (Text × Text)) :
    (tag.putAll values).entries = tag.entries.update (escaped values) := by
  induction values generalizing tag with
  | nil => rfl
  | cons entry values ih =>
    obtain ⟨name, value⟩ := entry
    rw [Tag.putAll_cons, ih]
    exact congrArg (Table.update · (escaped values)) (entries_putAttribute name value tag.attributes)

theorem get?_escaped (values : List (Text × Text)) (name : Text) :
    Table.get? (escaped values).reverse name = (lastWritten? values name).map fun value => some (escape value) := by
  unfold escaped lastWritten?
  rw [← List.map_reverse]
  exact Table.get?_map (fun value => some (escape value)) values.reverse name

theorem mem_putAttribute {name value : Text} {attributes : List Attribute} {a : Attribute}
    (member : a ∈ putAttribute name value attributes) : a ∈ attributes ∨ a.name = name := by
  induction attributes with
  | nil =>
    rw [List.mem_singleton.mp member]
    exact .inr rfl
  | cons b attributes ih =>
    unfold putAttribute at member
    split at member
    · rename_i same
      rcases List.mem_cons.mp member with rfl | later
      · exact .inr same
      · exact .inl (List.mem_cons_of_mem _ later)
    · rcases List.mem_cons.mp member with rfl | later
      · exact .inl List.mem_cons_self
      · exact (ih later).imp_left (List.mem_cons_of_mem _)

theorem Tag.mem_putAll {tag : Tag} {values : List (Text × Text)} {a : Attribute}
    (member : a ∈ (tag.putAll values).attributes) : a ∈ tag.attributes ∨ a.name ∈ values.map (·.1) := by
  induction values generalizing tag with
  | nil => exact .inl member
  | cons entry values ih =>
    rw [List.map_cons, List.mem_cons]
    rcases ih member with put | later
    · exact (mem_putAttribute put).imp_right .inl
    · exact .inr (.inr later)

/-- What `tag` reads as after the values were set. -/
structure Tag.Holds (tag : Tag) (values : List (Text × Text)) (seen : Tag) : Prop where
  name : seen.name = tag.name
  selfClosing : seen.selfClosing = tag.selfClosing
  noneAdded : seen.added = []
  names : seen.attributes.map (·.name) = tag.attributes.map (·.name) ++
    ((values.map (·.1)).removeAll (tag.attributes.map (·.name))).eraseDups
  last : ∀ a ∈ seen.attributes, ∀ value, lastWritten? values a.name = some value → a.value = some (escape value)
  kept : ∀ a ∈ seen.attributes, lastWritten? values a.name = none → a ∈ tag.attributes

theorem nodup_putAll {tag : Tag} (distinct : (tag.attributes.map (·.name)).Nodup) (values : List (Text × Text)) :
    ((tag.putAll values).attributes.map (·.name)).Nodup := by
  induction values generalizing tag with
  | nil => exact distinct
  | cons entry values ih => exact ih (nodup_putAttribute distinct entry.1 entry.2)

theorem Tag.holds_putAll {tag : Tag} (noneAdded : tag.added = [])
    (distinct : (tag.attributes.map (·.name)).Nodup) (values : List (Text × Text)) :
    tag.Holds values (tag.putAll values) where
  name := tag.putAll_name values
  selfClosing := by rw [Tag.putAll_eq]
  noneAdded := by rw [Tag.putAll_eq]; exact noneAdded
  names := by
    rw [← Tag.names_entries, Tag.entries_putAll, Table.names_update, Tag.names_entries, names_escaped]
  last := by
    intro a member value given
    have entry : (a.name, a.value) ∈ (tag.putAll values).entries := List.mem_map_of_mem member
    have distinct' : (tag.putAll values).entries.names.Nodup := by
      rw [Tag.names_entries]
      exact nodup_putAll distinct values
    have found := Table.get?_of_mem distinct' entry
    rw [Tag.entries_putAll, Table.get?_update, get?_escaped, given] at found
    exact (Option.some.inj found).symm
  kept := by
    intro a member absent
    refine (Tag.mem_putAll member).resolve_right fun given => ?_
    have some := isSome_lastWritten? given
    rw [absent] at some
    cases some

/-- Whatever is set in a tag of a document, the text of the tag is one tag that reads as it should, and each
    value can be told from how it is written. -/
theorem scan_render_setAll {document : Text} {tag : Tag} (member : tag ∈ tags document)
    (distinct : (tag.attributes.map (·.name)).Nodup) {values : List (Text × Text)}
    (writable : ∀ entry ∈ values, WritableName entry.1) :
    (∃ seen, token.scan (tag.setAll values).render = [.found (.tag seen) (tag.setAll values).render] ∧
      tag.Holds values seen) ∧ Function.LeftInverse unescape escape ∧ Function.Injective escape := by
  have legible := legible_of_mem_tags member
  have inverse : Function.LeftInverse unescape escape := unescape_escape
  refine ⟨⟨tag.putAll values, ?_, tag.holds_putAll legible.added distinct values⟩, inverse, inverse.injective⟩
  rw [Tag.render_setAll legible.added]
  exact scan_render (legible.putAll writable)

def ropeTag : Tag where
  name := "g".toList
  attributes := [⟨[' '], "'odd".toList, none, "'odd".toList⟩,
    ⟨[' '], "x".toList, some "y/".toList, "x = y/".toList⟩]
  tail := [' ']
  selfClosing := true

def ropeValues : List (Text × Text) :=
  [("fill".toList, "red".toList), ("'odd".toList, "&lt;".toList), ("fill".toList, "\"<".toList)]

theorem scan_render_setAll_rope : ropeTag ∈ tags "<a><g 'odd x = y/ /></a>".toList ∧
    (ropeTag.attributes.map (·.name)).Nodup ∧ (∀ entry ∈ ropeValues, WritableName entry.1) ∧
      (ropeTag.setAll ropeValues).render = "<g 'odd=\"&amp;lt;\" x = y/ fill=\"&quot;&lt;\" />".toList ∧
        (∃ seen, token.scan (ropeTag.setAll ropeValues).render =
          [.found (.tag seen) (ropeTag.setAll ropeValues).render] ∧ ropeTag.Holds ropeValues seen) ∧
          Function.LeftInverse unescape escape ∧ Function.Injective escape := by
  have member : ropeTag ∈ tags "<a><g 'odd x = y/ /></a>".toList := by decide +kernel
  have distinct : (ropeTag.attributes.map (·.name)).Nodup := by decide +kernel
  have writable : ∀ entry ∈ ropeValues, WritableName entry.1 := by decide +kernel
  have text : (ropeTag.setAll ropeValues).render = "<g 'odd=\"&amp;lt;\" x = y/ fill=\"&quot;&lt;\" />".toList := by
    decide +kernel
  exact ⟨member, distinct, writable, text, scan_render_setAll member distinct writable⟩

end Flipbook.Markup
