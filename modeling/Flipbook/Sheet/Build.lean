import Flipbook.Sheet.Layout
import Flipbook.Text.Base64
import Flipbook.Text.Digit

namespace Flipbook.Sheet

open Text

structure Picture where
  id : Text
  tile : Tile
  address : Text
  deriving DecidableEq, Repr

class Writer where
  write : Int → Int → List Picture → Option Text

def dataAddress (frame : Text) : Text := "data:image/svg+xml;base64,".toList ++ base64 (encode frame)

def pictures (grid : Grid) (frames : List Text) : List Picture :=
  frames.zipIdx.map fun (frame, index) => ⟨"frame_".toList ++ ofNat index, grid.tile index, dataAddress frame⟩

def build [Writer] (options : Options) (frames : List Text) : Except SheetError Text := do
  let grid ← layout options frames
  if !grid.isWritable then throw .unwritable
  match Writer.write grid.width grid.height (pictures grid frames) with
  | some sheet => return sheet
  | none => throw .refused

end Flipbook.Sheet
