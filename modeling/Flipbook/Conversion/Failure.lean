import Flipbook.Config.PatternError
import Flipbook.Files.FileSystem
import Flipbook.Frame.Compile
import Flipbook.Sheet.Layout

namespace Flipbook.Conversion

open Text

inductive Step
  | reading
  | compiling
  | saving
  | buildingSheet
  | done
  deriving DecidableEq, Repr

namespace Step

def percent : Step → Nat
  | reading => 10
  | compiling => 30
  | saving => 70
  | buildingSheet => 90
  | done => 100

def message : Step → Text
  | reading => "Reading SVG...".toList
  | compiling => "Compiling frames...".toList
  | saving => "Saving frames...".toList
  | buildingSheet => "Building sprite sheet...".toList
  | done => "Done!".toList

end Step

inductive Failure
  | inputMissing (path : Text)
  | file (error : FileError)
  | notText
  | frames (error : Frame.CompileError)
  | filename (pattern : Text) (error : PatternError)
  | sheet (error : Sheet.SheetError)

/-- What is said of the failure; nothing of one that is not reported. -/
def Failure.message? : Failure → Option Text
  | inputMissing path => some ("File not found: ".toList ++ path)
  | file error => if error.problem = .notAName then none else some error.message
  | filename pattern error =>
    if error.isReported then
      some ("Invalid output.filename_pattern '".toList ++ pattern ++ "': ".toList ++ error.message)
    else none
  | notText | frames _ | sheet _ => none

end Flipbook.Conversion
