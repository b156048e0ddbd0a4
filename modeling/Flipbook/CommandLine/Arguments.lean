import Flipbook.CommandLine.Word
import Flipbook.Config.Settings
import Flipbook.Number.Freeform

namespace Flipbook.CommandLine

open Text

structure Options where
  outputDirectory : Option Text := none
  rate : Option Float := none
  frameCount : Option Int := none
  canvas : Option Float := none
  hasSheet : Bool := false
  parallel : Bool := false
  config : Option Text := none
  verbose : Bool := false

structure Arguments extends Options where
  input : Text

inductive Misuse
  | ambiguous (word : Text)
  | noValue (key : Key)
  | badValue (key : Key) (value : Text)
  | surplusValue (value : Text)
  | noInput
  | surplusWords (words : List Text)

/-- Why a command line asks for no conversion. -/
inductive Departure
  | help
  | misuse (misuse : Misuse)

def Departure.code : Departure → Nat
  | help => 0
  | misuse _ => 2

def Misuse.message : Misuse → Text
  | ambiguous word => "ambiguous option: ".toList ++ word
  | noValue key => "argument ".toList ++ key.name ++ ": expected one argument".toList
  | badValue key value => "argument ".toList ++ key.name ++ ": invalid value: ".toList ++ quoted value
  | surplusValue value => "ignored explicit argument ".toList ++ quoted value
  | noInput => "the following arguments are required: input".toList
  | surplusWords words => "unrecognized arguments: ".toList ++ joinWith [' '] words

namespace Options

def put (options : Options) (key : Key) (value : Text) : Except Departure Options :=
  let bad : Departure := .misuse (.badValue key value)
  match key with
  | .outputDirectory => return { options with outputDirectory := some value }
  | .config => return { options with config := some value }
  | .rate =>
    match toFloat? value with
    | some x => return { options with rate := some x }
    | none => throw bad
  | .canvas =>
    match toFloat? value with
    | some x => return { options with canvas := some x }
    | none => throw bad
  | .frameCount =>
    match toInt? value with
    | some n => return { options with frameCount := some n }
    | none => throw bad

def raise (options : Options) : Flag → Except Departure Options
  | .help => throw .help
  | .sheet => return { options with hasSheet := true }
  | .parallel => return { options with parallel := true }
  | .verbose => return { options with verbose := true }

def override (options : Options) (config : Configuration) : Configuration :=
  let put (sectionName name : String) (value : Option Setting) (config : Configuration) : Configuration :=
    match value with
    | some value => config.put sectionName.toList name.toList value
    | none => config
  let whenOn (on : Bool) : Option Setting := if on then some (.flag true) else none
  config
  |> put "frames" "fps" (options.rate.map .binary)
  |> put "frames" "frame_count" (options.frameCount.map .whole)
  |> put "canvas" "size" (options.canvas.map .binary)
  |> put "output" "sprite_sheet" (whenOn options.hasSheet)
  |> put "advanced" "parallel_processing" (whenOn options.parallel)

end Options

structure Reading where
  input : Option Text := none
  options : Options := {}
  surplus : List Text := []

namespace Reading

def addSurplus (reading : Reading) (t : Text) : Reading := { reading with surplus := reading.surplus ++ [t] }

/-- The flags in the rest of a word after one of them, up to a letter that is none; from there on the
    word is surplus. -/
def tailFlags : Text → Except Departure (List Flag × List Text)
  | [] => return ([], [])
  | c :: tail => do
    if c = '-' || c = '=' then throw (.misuse (.surplusValue (c :: tail)))
    match shortFlag? c with
    | none => return ([], ['-' :: c :: tail])
    | some flag =>
      let (flags, surplus) ← tailFlags tail
      return (flag :: flags, surplus)

def raiseShort (reading : Reading) (flag : Flag) (tail : Text) : Except Departure Reading := do
  let (flags, surplus) ← tailFlags tail
  let options ← (flag :: flags).foldlM Options.raise reading.options
  return { reading with options, surplus := reading.surplus ++ surplus }

/-- Reads the words. The first plain word that is no value of an option is the input, and a separator
    counts as surplus unless it stands right beside that. -/
def ofWords (reading : Reading) : List Word → Except Departure Reading
  | [] => return reading
  | .plain t :: rest =>
    match reading.input, rest with
    | none, .separator :: rest => ofWords { reading with input := some t } rest
    | none, rest => ofWords { reading with input := some t } rest
    | some _, rest => ofWords (reading.addSurplus t) rest
  | .separator :: rest =>
    match reading.input, rest with
    | none, .plain t :: rest => ofWords { reading with input := some t } rest
    | _, rest => ofWords (reading.addSurplus ['-', '-']) rest
  | .unknown t :: rest => ofWords (reading.addSurplus t) rest
  | .short flag tail :: rest => do ofWords (← reading.raiseShort flag tail) rest
  | .long (.flag flag) none :: rest => do
    ofWords { reading with options := ← reading.options.raise flag } rest
  | .long (.flag _) (some value) :: _ => throw (.misuse (.surplusValue value))
  | .long (.key key) (some value) :: rest => do
    ofWords { reading with options := ← reading.options.put key value } rest
  | .long (.key key) none :: .plain value :: rest => do
    ofWords { reading with options := ← reading.options.put key value } rest
  | .long (.key key) none :: _ => throw (.misuse (.noValue key))

def finish (reading : Reading) : Except Departure Arguments :=
  match reading.input, reading.surplus with
  | none, _ => throw (.misuse .noInput)
  | some input, [] => return { reading.options with input }
  | some _, surplus => throw (.misuse (.surplusWords surplus))

end Reading

def Arguments.ofTexts (words : List Text) : Except Departure Arguments := do
  match Word.ofTexts words with
  | .error word => throw (.misuse (.ambiguous word))
  | .ok words => (← Reading.ofWords {} words).finish

end Flipbook.CommandLine
