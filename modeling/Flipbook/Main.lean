import Flipbook.CommandLine.Program
import Flipbook.Config.Types
import Flipbook.Conversion.ReportText
import Flipbook.Sheet.Svg
import Flipbook.Yaml.Document

namespace Flipbook

open CommandLine

def Path.systemText (path : Path) : String := String.ofList path.text

def errorNumber (code : UInt32) : Nat := if code < 0x80000000 then code.toNat else (0 - code).toNat

def FileProblem.ofError : IO.Error → FileProblem
  | .noFileOrDirectory .. => .notFound
  | .alreadyExists .. => .alreadyThere
  | .inappropriateType _ code _ => if errorNumber code = 21 then .isDirectory else .notDirectory
  | .invalidArgument _ code details =>
    if errorNumber code = 36 then .nameTooLong else .other (errorNumber code) details.toList
  | .permissionDenied _ code _ => .other (errorNumber code) "Permission denied".toList
  | error => .other 5 error.toString.toList

def attempt {α : Type} (path : Path) (action : IO α) : ExceptT FileError IO α :=
  if path.text.contains '\x00' then throw ⟨.notAName, path⟩
  else ExceptT.mk (tryCatch (.ok <$> action) fun error => return .error ⟨.ofError error, path⟩)

instance : FileSystem IO where
  kind path := attempt path do
    let entry : IO.FS.DirEntry := ⟨path.systemText, ""⟩
    let found ← entry.root.metadata
    return if found.type == .dir then .directory else .file
  read path := attempt path (return (← IO.FS.readBinFile path.systemText).toList)
  size path := attempt path do
    let entry : IO.FS.DirEntry := ⟨path.systemText, ""⟩
    return (← entry.root.metadata).byteSize.toNat
  makeDirectory path := attempt path (IO.FS.createDir path.systemText)
  write path content := attempt path (IO.FS.writeBinFile path.systemText ⟨content.toArray⟩)

def usage : String :=
  "usage: flipbook [-h] [--output-dir OUTPUT_DIR] [--fps FPS] [--frames FRAME_COUNT]\n"
    ++ "                [--canvas-size CANVAS_SIZE] [--sprite-sheet] [--parallel]\n"
    ++ "                [--config CONFIG] [-v]\n                input"

def printText (t : Text) : IO Unit := IO.println (String.ofList t)

def printError (t : Text) : IO Unit := IO.eprintln (String.ofList t)

def runWords (words : List Text) : IO Nat := do
  match Arguments.ofTexts words with
  | .error departure =>
    match departure with
    | .help => IO.println usage
    | .misuse misuse =>
      IO.eprintln usage
      printError ("flipbook: error: ".toList ++ misuse.message)
    return departure.code
  | .ok arguments =>
    let start ← IO.monoMsNow
    let outcome ← (run (m := IO) arguments).run
    match outcome with
    | .ok report =>
      let elapsed := ((← IO.monoMsNow) - start).toFloat / 1000.0
      printText ((report.json elapsed).indented 0)
    | .error error =>
      match error.message? with
      | some message => printError ((Conversion.failureJson message).indented 0)
      | none => printError "flipbook: the input cannot be converted".toList
    return exitCode outcome

end Flipbook

def main (words : List String) : IO UInt32 :=
  return (← Flipbook.runWords (words.map String.toList)).toUInt32
