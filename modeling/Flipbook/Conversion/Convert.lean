import Flipbook.Config.Pattern
import Flipbook.Config.Settings
import Flipbook.Conversion.Failure
import Flipbook.Sheet.Build

namespace Flipbook.Conversion

open Text

structure FrameFile where
  index : Nat
  path : Path
  timestamp : Float
  size : Nat

structure Report where
  input : Path
  outputDirectory : Path
  rate : Amount
  totalDuration : Float
  frames : List FrameFile
  sheet : Option Path

/-- The integers in a report. -/
def Report.integers (report : Report) : List Int :=
  let rate := match report.rate with
    | .whole n => [n]
    | .binary _ => []
  rate ++ [(report.frames.length : Int)] ++ report.frames.flatMap fun frame => [(frame.index : Int), frame.size]

variable {m : Type → Type} [Monad m] [FileSystem m]

def onFiles {α : Type} (action : ExceptT FileError m α) : ExceptT Failure m α :=
  ExceptT.adapt .file action

def writeDocument (path : Path) (document : Text) : ExceptT Failure m Unit :=
  onFiles (FileSystem.write path (encode document))

/-- The document in a file, line ends of every kind as line feeds. -/
def readDocument (path : Path) : ExceptT Failure m Text := do
  match decode? (← onFiles (FileSystem.read path)) with
  | some t => return normalizeLines t
  | none => throw .notText

def frameFilename [Reflection] (pattern : Setting) (name : Text) (index : Nat) : Except Failure Text :=
  match pattern with
  | .text pattern => (filename pattern ⟨name, index⟩).mapError (.filename pattern)
  | _ => throw (.filename [] .notText)

/-- Writes the frames one after the other. A name that comes twice loses the frame before. -/
def writeFrames [Reflection] (pattern : Setting) (name : Text) (directory : Path) (frames : List Frame) :
    ExceptT Failure m (List FrameFile) :=
  frames.mapM fun frame => do
    let filename ← ExceptT.mk (pure (frameFilename pattern name frame.index))
    let path := directory.join (.ofText filename)
    writeDocument path frame.data
    let size ← onFiles (FileSystem.size path)
    return ⟨frame.index, path, frame.timestamp, size⟩

def writeSheet [Sheet.Writer] (settings : Settings) (path : Path) (frames : List Frame) : ExceptT Failure m Unit := do
  let options : Sheet.Options := { columns := settings.sheetColumns, frameWidth := settings.sheetFrameWidth }
  let sheet ← ExceptT.mk (pure ((Sheet.build options (frames.map Frame.data)).mapError .sheet))
  writeDocument path sheet

/-- The directory for the frames: beside the input unless one is given. -/
def outputDirectory (input : Path) (given : Option Text) : Path :=
  match given with
  | none | some [] => input.parent.join (.ofText "frames".toList)
  | some directory => .ofText directory

/-- Converts the file at a path. What was written before a failure stays. -/
def convert [Reflection] [Sheet.Writer] (settings : Settings) (tell : Step → m Unit) (input : Text) (directory : Option Text) :
    ExceptT Failure m Report := do
  let path := Path.ofText input
  if !(← onFiles (FileSystem.is .file path)) then throw (.inputMissing input)
  let directory := outputDirectory path directory
  tell .reading
  let document ← readDocument path
  tell .compiling
  let frames ← ExceptT.mk (pure ((Frame.compile settings.frames document).mapError .frames))
  tell .saving
  onFiles (FileSystem.makeDirectories directory)
  let files ← writeFrames settings.pattern path.stem directory frames
  let sheet ←
    if settings.hasSheet then do
      tell .buildingSheet
      let sheet := directory.join (.ofText (path.stem ++ "_sprite.svg".toList))
      writeSheet settings sheet frames
      pure (some sheet)
    else pure none
  tell .done
  return {
    input := path
    outputDirectory := directory
    rate := settings.frames.rate
    totalDuration := (frames.map Frame.duration).foldl (· + ·) 0.0
    frames := files
    sheet }

end Flipbook.Conversion
