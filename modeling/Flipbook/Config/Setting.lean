import Flipbook.Number.Amount
import Flipbook.Number.Notation
import Flipbook.Table
import Flipbook.Text.Quoted

namespace Flipbook

/-- What a configuration holds under its names. Lists and mappings stand in a store under their nodes, so that
    one of them may be found in several places. -/
inductive Setting
  | null
  | flag (value : Bool)
  | whole (n : Int)
  | binary (x : Float)
  | text (t : Text)
  | pair (first second : Setting)
  | list (node : Nat)
  | mapping (node : Nat)
  | other (on : Bool) (shown? : Option Text)
  deriving Inhabited

inductive SettingName
  | text (t : Text)
  | whole (n : Int)
  | other (shown : Text)
  deriving DecidableEq, Repr

structure Store where
  mappings : Table (Table Setting SettingName) Nat := []
  lists : Table (List Setting) Nat := []

namespace SettingName

def shown? : SettingName → Option Text
  | text t => some (Text.quoted t)
  | whole n => Text.ofInt? n
  | other shown => some shown

end SettingName

namespace Setting

open Text

def amount? : Setting → Option Amount
  | whole n => some (.whole n)
  | binary x => some (.binary x)
  | _ => none

def nodes : Setting → List Nat
  | pair first second => first.nodes ++ second.nodes
  | list node | mapping node => [node]
  | _ => []

def shownWith? (listAt? mappingAt? : Nat → Option Text) : Setting → Option Text
  | null => some "None".toList
  | flag value => some (if value then "True".toList else "False".toList)
  | whole n => ofInt? n
  | binary x => some (Binary64.plainText x)
  | text t => some (quoted t)
  | pair first second => do
    let first ← first.shownWith? listAt? mappingAt?
    let second ← second.shownWith? listAt? mappingAt?
    return '(' :: first ++ ", ".toList ++ second ++ [')']
  | list node => listAt? node
  | mapping node => mappingAt? node
  | other _ shown? => shown?

end Setting

namespace Store

open Text

def mapping (store : Store) (node : Nat) : Table Setting SettingName := (store.mappings.get? node).getD []

def list (store : Store) (node : Nat) : List Setting := (store.lists.get? node).getD []

def lookup? (store : Store) (node : Nat) (name : SettingName) : Option Setting := (store.mapping node).get? name

def write (store : Store) (node : Nat) (name : SettingName) (value : Setting) : Store :=
  { store with mappings := store.mappings.insert node ((store.mapping node).insert name value) }

def nodes (store : Store) : List Nat :=
  (store.mappings.flatMap fun (node, entries) => node :: entries.flatMap fun (_, value) => value.nodes)
    ++ store.lists.flatMap fun (node, items) => node :: items.flatMap Setting.nodes

def isOn (store : Store) : Setting → Bool
  | .null => false
  | .flag value => value
  | .whole n => n ≠ 0
  | .binary x => x != 0.0
  | .text t => !t.isEmpty
  | .pair _ _ => true
  | .list node => !(store.list node).isEmpty
  | .mapping node => !(store.mapping node).isEmpty
  | .other on _ => on

/-- A setting as messages show it. A list or mapping inside itself is cut short; `lists` and `mappings` are those
    around the setting, and `fuel` is enough if it is more than what the store has beside them. -/
def shownInside? (store : Store) (fuel : Nat) (lists mappings : List Nat) (setting : Setting) : Option Text :=
  match fuel with
  | 0 => none
  | fuel + 1 =>
    let listAt? (node : Nat) : Option Text :=
      if node ∈ lists then some "[...]".toList
      else do
        let items ← (store.list node).mapM (store.shownInside? fuel (node :: lists) mappings)
        return '[' :: joinWith ", ".toList items ++ [']']
    let mappingAt? (node : Nat) : Option Text :=
      if node ∈ mappings then some "\x7b...\x7d".toList
      else do
        let entries ← (store.mapping node).mapM fun (name, value) => do
          let name ← name.shown?
          let value ← store.shownInside? fuel lists (node :: mappings) value
          return name ++ ':' :: ' ' :: value
        return '\x7b' :: joinWith ", ".toList entries ++ ['\x7d']
    setting.shownWith? listAt? mappingAt?

def shown? (store : Store) (setting : Setting) : Option Text :=
  store.shownInside? (store.mappings.length + store.lists.length + 1) [] [] setting

theorem mapping_write (store : Store) (node other : Nat) (name : SettingName) (value : Setting) :
    (store.write node name value).mapping other =
      if node = other then (store.mapping node).insert name value else store.mapping other := by
  unfold write
  rw [mapping, Table.get?_insert]
  split <;> rfl

theorem lookup?_write (store : Store) (node other : Nat) (name key : SettingName) (value : Setting) :
    (store.write node name value).lookup? other key =
      if (node, name) = (other, key) then some value else store.lookup? other key := by
  unfold lookup?
  rw [mapping_write]
  by_cases same : node = other
  · subst same
    simp [Table.get?_insert]
  · simp [same]

end Store

/-- A store with the node of its top mapping. -/
structure Configuration extends Store where
  root : Nat := 0

namespace Configuration

def section? (config : Configuration) (name : Text) : Option Nat :=
  match config.lookup? config.root (.text name) with
  | some (.mapping node) => some node
  | _ => none

def at? (config : Configuration) (sectionName name : Text) : Option Setting :=
  (config.section? sectionName).bind fun node => config.lookup? node (.text name)

def write (config : Configuration) (node : Nat) (name : SettingName) (value : Setting) : Configuration :=
  { config with toStore := config.toStore.write node name value }

/-- A node that stands for nothing yet. -/
def fresh (config : Configuration) : Nat := (config.root :: config.nodes).foldr max 0 + 1

/-- The configuration with a mapping for a section, an empty one if there is none, and its node. -/
def opened (config : Configuration) (name : Text) : Configuration × Nat :=
  match config.section? name with
  | some node => (config, node)
  | none => (config.write config.root (.text name) (.mapping config.fresh), config.fresh)

/-- Puts a setting into a section, which takes the place of what is no mapping. -/
def put (config : Configuration) (sectionName name : Text) (value : Setting) : Configuration :=
  let (config, node) := config.opened sectionName
  config.write node (.text name) value

theorem lookup?_write (config : Configuration) (node other : Nat) (name key : SettingName) (value : Setting) :
    (config.write node name value).lookup? other key =
      if (node, name) = (other, key) then some value else config.lookup? other key :=
  config.toStore.lookup?_write node other name key value

end Configuration
end Flipbook
