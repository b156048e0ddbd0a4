import Flipbook.Yaml.Library

namespace Flipbook.Yaml

open Text

inductive Node
  | scalar (value : Setting)
  | stray
  | list (items : List Node)
  | mapping (entries : List (SettingName × Node))
  | anchor (name : Text) (node : Node)
  | reference (name : Text)
  deriving Inhabited

structure Builder where
  store : Store := {}
  anchors : Table Setting := []
  next : Nat := 0
  isStray : Bool := false

abbrev Building := StateT Builder Option

namespace Builder

def take : Building Nat := do
  let builder ← get
  set { builder with next := builder.next + 1 }
  return builder.next

def name (name? : Option Text) (value : Setting) : Building Unit := do
  if let some name := name? then
    let builder ← get
    if builder.anchors.contains name then failure
    set { builder with anchors := builder.anchors.insert name value }

def find (name : Text) : Building Setting := do
  match (← get).anchors.get? name with
  | some value => return value
  | none => failure

def addList (node : Nat) (items : List Setting) : Building Unit :=
  modify fun builder => { builder with store.lists := builder.store.lists.insert node items }

def addMapping (node : Nat) (entries : List (SettingName × Setting)) : Building Unit :=
  modify fun builder => { builder with store.mappings := builder.store.mappings.insert node (Table.ofList entries) }

end Builder

def Fault.noDocument : Fault := .refused "not a YAML document".toList

namespace Node

mutual

def build (name? : Option Text) : Node → Building Setting
  | scalar value => do
    Builder.name name? value
    return value
  | stray => do
    Builder.name name? .null
    modify fun builder => { builder with isStray := true }
    return .null
  | list items => do
    let node ← Builder.take
    Builder.name name? (.list node)
    Builder.addList node (← buildItems items)
    return .list node
  | mapping entries => do
    let node ← Builder.take
    Builder.name name? (.mapping node)
    Builder.addMapping node (← buildEntries entries)
    return .mapping node
  | anchor name node => node.build (some name)
  | reference name => if name?.isSome then failure else Builder.find name

def buildItems : List Node → Building (List Setting)
  | [] => return []
  | item :: rest => do
    let item ← item.build none
    return item :: (← buildItems rest)

def buildEntries : List (SettingName × Node) → Building (List (SettingName × Setting))
  | [] => return []
  | (name, node) :: rest => do
    let value ← node.build none
    return (name, value) :: (← buildEntries rest)

end

def document (node : Node) : Except Fault Document :=
  match (node.build none).run {} with
  | some (value, builder) => if builder.isStray then .error .stray else .ok ⟨value, builder.store⟩
  | none => .error .noDocument

def named (name? : Option Text) (node : Node) : Node :=
  match name? with
  | some name => .anchor name node
  | none => node

end Node
end Flipbook.Yaml
