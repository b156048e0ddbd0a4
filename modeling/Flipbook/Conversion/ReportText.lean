import Flipbook.Conversion.Convert
import Flipbook.Text.JsonText

namespace Flipbook.Conversion

open Text

def floatJson (x : Float) : JsonValue :=
  .number (if x.isNaN then "NaN".toList
    else if x == Binary64.infinity false then "Infinity".toList
    else if x == Binary64.infinity true then "-Infinity".toList
    else Binary64.plainText x)

def amountJson : Amount → JsonValue
  | .whole n => .number (ofInt n)
  | .binary x => floatJson x

def FrameFile.json (frame : FrameFile) : JsonValue :=
  .object [("frame", .number (ofNat frame.index)), ("file", .text frame.path.text),
    ("timestamp", floatJson frame.timestamp), ("size", .number (ofNat frame.size))]

def Report.json (report : Report) (elapsed : Float) : JsonValue :=
  .object [("status", .text "success".toList), ("input", .text report.input.text),
    ("output_dir", .text report.outputDirectory.text), ("fps", amountJson report.rate),
    ("frames_count", .number (ofNat report.frames.length)),
    ("total_duration", floatJson report.totalDuration),
    ("frames", .list (report.frames.map FrameFile.json)),
    ("sprite_sheet", (report.sheet.map fun path => .text path.text).getD .null),
    ("elapsed", floatJson elapsed)]

def failureJson (message : Text) : JsonValue := .object [("error", .text message)]

end Flipbook.Conversion
