import Mathlib.Data.List.MinMax
import Flipbook.Config.Settings
import Flipbook.Proofs.Outcome

namespace Flipbook.Configuration

variable {config result between : Configuration} {sectionName name : Text} {node : Nat}

theorem root_write (node : Nat) (key : SettingName) (value : Setting) : (config.write node key value).root = config.root :=
  rfl

theorem section?_write {key : SettingName} (apart : key ≠ .text sectionName) (node : Nat) (value : Setting) :
    (config.write node key value).section? sectionName = config.section? sectionName := by
  have kept : (config.write node key value).lookup? config.root (.text sectionName) =
      config.lookup? config.root (.text sectionName) := by
    rw [lookup?_write, if_neg fun same => apart (Prod.mk.inj same).2]
  unfold section?
  rw [root_write, kept]

/-- The settings with a usual value, by their sections. -/
def places : List (Text × Text) := usual.flatMap fun (sectionName, settings) => settings.map fun (name, _) => (sectionName, name)

theorem place_name_ne {place other : Text × Text} (known : place ∈ places) (known' : other ∈ places) :
    place.2 ≠ other.1 := by
  have apart : ∀ place ∈ places, ∀ other ∈ places, place.2 ≠ other.1 := by decide
  exact apart place known other known'

/-- The entries that belong to the sections: their mappings, and the settings in these that have a usual value. -/
inductive Owned (config : Configuration) : Nat → SettingName → Prop
  | mapping {owner name : Text} (known : (owner, name) ∈ places) : Owned config config.root (.text owner)
  | setting {owner name : Text} {place : Nat} (known : (owner, name) ∈ places)
      (here : config.section? owner = some place) : Owned config place (.text name)

/-- Nothing changes but what belongs to the sections, and a section that is there stays the mapping that it is. -/
structure Kept (config result : Configuration) : Prop where
  root : result.root = config.root
  lists : result.lists = config.lists
  sections : ∀ sectionName name node, (sectionName, name) ∈ places → config.section? sectionName = some node →
    result.section? sectionName = some node
  entries : ∀ node key, ¬result.Owned node key → result.lookup? node key = config.lookup? node key

theorem Owned.of_kept {key : SettingName} (owned : config.Owned node key) (kept : config.Kept result) :
    result.Owned node key := by
  cases owned with
  | mapping known => exact kept.root ▸ .mapping known
  | setting known here => exact .setting known (kept.sections _ _ _ known here)

namespace Kept

theorem refl (config : Configuration) : config.Kept config where
  root := rfl
  lists := rfl
  sections _ _ _ _ here := here
  entries _ _ _ := rfl

theorem trans (first : config.Kept between) (second : between.Kept result) : config.Kept result where
  root := second.root.trans first.root
  lists := second.lists.trans first.lists
  sections _ _ _ known here := second.sections _ _ _ known (first.sections _ _ _ known here)
  entries node key free :=
    (second.entries node key free).trans (first.entries node key fun owned => free (owned.of_kept second))

theorem write (known : (sectionName, name) ∈ places) (here : config.section? sectionName = some node)
    (value : Setting) : config.Kept (config.write node (.text name) value) := by
  have sections {other key : Text} (known' : (other, key) ∈ places) :
      (config.write node (.text name) value).section? other = config.section? other := by
    have apart : SettingName.text name ≠ .text other := fun same =>
      place_name_ne known known' (SettingName.text.inj same)
    exact section?_write apart node value
  exact {
    root := rfl
    lists := rfl
    sections := fun _ _ _ known' found => (sections known').trans found
    entries := by
      intro place key free
      rw [lookup?_write, if_neg]
      rintro ⟨⟩
      exact free (.setting known ((sections known).trans here)) }

theorem opened (known : (sectionName, name) ∈ places) : config.Kept (config.opened sectionName).1 := by
  unfold Configuration.opened
  cases found : config.section? sectionName with
  | some node => exact refl config
  | none =>
    exact {
      root := rfl
      lists := rfl
      sections := by
        intro other key node known' here
        by_cases same : sectionName = other
        · rw [same, here] at found
          cases found
        · exact (section?_write (fun equal => same (SettingName.text.inj equal)) _ _).trans here
      entries := by
        intro place key free
        rw [lookup?_write, if_neg]
        rintro ⟨⟩
        exact free (.mapping known) }

end Kept

section fillUp

variable {settings : Table Setting} (known : ∀ entry ∈ settings, (sectionName, entry.1) ∈ places)
  (here : config.section? sectionName = some node)

include known here

end fillUp

section sections

variable {sections : Table (Table Setting)}
  (known : ∀ sectionName settings, (sectionName, settings) ∈ sections →
    (∃ name, (sectionName, name) ∈ places) ∧ ∀ entry ∈ settings, (sectionName, entry.1) ∈ places)

include known

end sections

end Flipbook.Configuration
