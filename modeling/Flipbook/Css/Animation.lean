import Flipbook.Css.Keyframes
import Flipbook.Css.Shorthand

namespace Flipbook.Css

open Text

structure Animation where
  selectorGroup : Text
  name : Text
  duration : Float := 0.0
  delay : Float := 0.0
  timing : Text := "ease".toList
  direction : Text := "normal".toList
  iterations : Text := "1".toList
  fill : Text := "none".toList
  static : Properties := []
  deriving Inhabited

def Animation.selectors (animation : Animation) : List Text :=
  ((splitBy (· = ',') animation.selectorGroup).map trim).filter (!·.isEmpty)

inductive StyleError
  /-- An `animation-name` that is a list of nothing. -/
  | emptyName
  deriving DecidableEq, Repr

def animationProperties : List String :=
  ["animation", "animation-name", "animation-duration", "animation-timing-function", "animation-delay",
    "animation-iteration-count", "animation-direction", "animation-fill-mode", "animation-play-state"]

def filled? (properties : Properties) (name : String) : Option Text :=
  match properties.get? name.toList with
  | some [] => none
  | other => other

/-- The shorthand, overridden field by field by the properties of their own. -/
def animationFields (properties : Properties) : Except StyleError AnimationFields := do
  let fields := ((filled? properties "animation").map shorthand).getD {}
  let name ← match filled? properties "animation-name" with
    | none => pure fields.name
    | some names =>
      match layers names with
      | [] => throw .emptyName
      | name :: _ => pure (some name)
  return {
    name
    duration := ((filled? properties "animation-duration").map duration).or fields.duration
    delay := ((filled? properties "animation-delay").map duration).or fields.delay
    timing := (filled? properties "animation-timing-function").or fields.timing
    iterations := (filled? properties "animation-iteration-count").or fields.iterations
    direction := (filled? properties "animation-direction").or fields.direction
    fill := (filled? properties "animation-fill-mode").or fields.fill }

def Animation.ofFields (selectorGroup name : Text) (fields : AnimationFields) (static : Properties) :
    Animation :=
  let default : Animation := { selectorGroup, name }
  { default with
    duration := fields.duration.getD default.duration
    delay := fields.delay.getD default.delay
    timing := fields.timing.getD default.timing
    direction := fields.direction.getD default.direction
    iterations := fields.iterations.getD default.iterations
    fill := fields.fill.getD default.fill
    static }

/-- The animation that a rule declares; none without a name, for the name `none` and for an at-rule. -/
def Block.animation? (block : Block) : Except StyleError (Option Animation) := do
  let selectorGroup := joinWith [' '] (words block.head)
  if selectorGroup.isEmpty || selectorGroup.head? = some '@' then return none
  let properties := declarations block.body
  let fields ← animationFields properties
  match fields.name with
  | none | some [] => return none
  | some name =>
    if name = "none".toList then return none
    let static := properties.filter fun (property, _) => !isOneOf animationProperties property
    return some (.ofFields selectorGroup name fields static)

/-- The animation under each group of selectors; the last rule of a group counts. -/
def animations (css : Text) : Except StyleError (Table Animation) := do
  let rules := blocks (fun _ => true) (removeKeyframes (stripComments css))
  let found ← rules.filterMapM Block.animation?
  return .ofList (found.map fun animation => (animation.selectorGroup, animation))

end Flipbook.Css
