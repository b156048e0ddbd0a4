import Flipbook.Sheet.Aspect
import Flipbook.Number.Amount

namespace Flipbook.Sheet

structure Options where
  columns : Option Int := none
  frameWidth : Int := 128
  frameHeight : Option Int := none

inductive SheetError
  | noFrames
  | aspect (error : AspectError)
  | number (error : NumberError)
  | unwritable
  | refused
  deriving DecidableEq, Repr

def noFramesMessage : Text := "No frames provided for the sprite sheet".toList

structure Tile where
  x : Int
  y : Int
  width : Int
  height : Int
  deriving DecidableEq, Repr

structure Grid where
  frames : Nat
  columns : Int
  frameWidth : Int
  frameHeight : Int
  deriving DecidableEq, Repr

namespace Grid

def rows (grid : Grid) : Int := (grid.frames + grid.columns - 1).fdiv grid.columns

def width (grid : Grid) : Int := min grid.columns grid.frames * grid.frameWidth

def height (grid : Grid) : Int := grid.rows * grid.frameHeight

def tile (grid : Grid) (index : Nat) : Tile where
  x := (index : Int).fmod grid.columns * grid.frameWidth
  y := (index : Int).fdiv grid.columns * grid.frameHeight
  width := grid.frameWidth
  height := grid.frameHeight

end Grid

def Grid.isWritable (grid : Grid) : Bool := [grid.columns, grid.width, grid.height].all Text.isWritable

def heightFor (width : Int) (frame : Text) : Except SheetError Int := do
  let ratio ← (aspect frame).mapError .aspect
  let width ← (Binary64.ofInt width).mapError .number
  (Binary64.roundEven (width * ratio)).mapError .number

def layout (options : Options) (frames : List Text) : Except SheetError Grid :=
  match frames with
  | [] => throw .noFrames
  | first :: _ => do
    let columns := match options.columns with
      | none | some 0 => (frames.length : Int)
      | some columns => columns
    let frameHeight ← match options.frameHeight with
      | some height => pure height
      | none => heightFor options.frameWidth first
    return ⟨frames.length, columns, options.frameWidth, frameHeight⟩

end Flipbook.Sheet
