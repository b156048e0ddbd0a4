import Flipbook.Config.Setting
import Flipbook.Frame.Compile

namespace Flipbook

inductive ConfigError
  | notSection (name : Text)
  | notPositive (path : String) (integer : Bool) (found : Text)
  /-- Such a setting with an integer in it that is too long for a message. -/
  | unwritable (path : String)
  deriving DecidableEq, Repr

def ConfigError.message? : ConfigError → Option Text
  | notSection name => some ("Section '".toList ++ name ++ "' must be a mapping".toList)
  | notPositive path integer found =>
    some (path.toList ++ " must be a positive ".toList ++ (if integer then "integer" else "number").toList
      ++ ", got ".toList ++ found)
  | unwritable _ => none

namespace Configuration

def usual : Table (Table Setting) :=
  [("frames".toList, [("fps".toList, .whole 8), ("frame_count".toList, .null)]),
    ("canvas".toList, [("size".toList, .whole 512)]),
    ("output".toList, [("filename_pattern".toList, .text "{name}_frame_{index:04d}.svg".toList),
      ("sprite_sheet".toList, .flag false), ("sprite_frame_width".toList, .whole 128),
      ("sprite_columns".toList, .null)]),
    ("advanced".toList, [("parallel_processing".toList, .flag false), ("num_workers".toList, .whole 4)])]

/-- Puts a setting into a mapping unless it is there. -/
def setMissing (config : Configuration) (node : Nat) (name : SettingName) (value : Setting) : Configuration :=
  if (config.lookup? node name).isSome then config else config.write node name value

def fillUp (config : Configuration) (node : Nat) (usual : Table Setting) : Configuration :=
  usual.foldl (fun config (name, value) => config.setMissing node (.text name) value) config

/-- The configuration with one section filled up; a missing or null section is put in whole. -/
def fillSection (config : Configuration) (name : Text) (usual : Table Setting) : Except ConfigError Configuration :=
  match config.lookup? config.root (.text name) with
  | none | some .null | some (.mapping _) =>
    let (config, node) := config.opened name
    return config.fillUp node usual
  | some _ => throw (.notSection name)

def complete (config : Configuration) : Except ConfigError Configuration :=
  usual.foldlM (fun config (name, settings) => config.fillSection name settings) config

def setting (config : Configuration) (sectionName name : String) : Setting :=
  (config.at? sectionName.toList name.toList).getD .null

def wrong (config : Configuration) (path : String) (integer : Bool) (found : Setting) : ConfigError :=
  match config.shown? found with
  | some found => .notPositive path integer found
  | none => .unwritable path

/-- A positive number. Not a number is let through. -/
def positive (config : Configuration) (sectionName name : String) : Except ConfigError Amount :=
  let found := config.setting sectionName name
  match found.amount? with
  | some amount =>
    if amount.isZeroOrLess then throw (config.wrong (sectionName ++ "." ++ name) false found) else return amount
  | none => throw (config.wrong (sectionName ++ "." ++ name) false found)

def positiveInteger (config : Configuration) (sectionName name : String) : Except ConfigError Int :=
  match config.setting sectionName name with
  | .whole n =>
    if 0 < n then return n else throw (config.wrong (sectionName ++ "." ++ name) true (.whole n))
  | found => throw (config.wrong (sectionName ++ "." ++ name) true found)

def optionalInteger (config : Configuration) (sectionName name : String) :
    Except ConfigError (Option Int) :=
  match config.setting sectionName name with
  | .null => return none
  | _ => return some (← config.positiveInteger sectionName name)

end Configuration

/-- What a conversion needs to know, and the full configuration from which it was read. -/
structure Settings where
  configuration : Configuration
  frames : Frame.Options
  pattern : Setting
  hasSheet : Bool
  sheetFrameWidth : Int
  sheetColumns : Option Int

def Settings.ofConfiguration (config : Configuration) : Except ConfigError Settings := do
  let config ← config.complete
  let rate ← config.positive "frames" "fps"
  let count ← config.optionalInteger "frames" "frame_count"
  let canvas ← config.positive "canvas" "size"
  let sheetFrameWidth ← config.positiveInteger "output" "sprite_frame_width"
  let sheetColumns ← config.optionalInteger "output" "sprite_columns"
  let workers ← config.positiveInteger "advanced" "num_workers"
  return {
    configuration := config
    frames := {
      rate, canvas
      count := count.map .whole
      parallel := config.isOn (config.setting "advanced" "parallel_processing")
      workers := some (.whole workers) }
    pattern := config.setting "output" "filename_pattern"
    hasSheet := config.isOn (config.setting "output" "sprite_sheet")
    sheetFrameWidth, sheetColumns }

end Flipbook
