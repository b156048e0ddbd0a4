import Flipbook.Frame.Resolve
import Flipbook.Markup.Presentation
import Flipbook.Markup.StyleElement
import Flipbook.Text.Utf8

namespace Flipbook

structure Frame where
  data : Text
  timestamp : Float
  duration : Float
  index : Nat

namespace Frame

open Css Markup

structure Options where
  rate : Amount := .whole 8
  count : Option Amount := none
  /-- The edge of the square canvas that origins refer to. -/
  canvas : Amount := .whole 512
  parallel : Bool := false
  /-- How many frames are compiled at once if in parallel; none for as many as fit. -/
  workers : Option Amount := some (.whole 4)

def orUsual (amount : Option Amount) (usual : Amount) : Amount :=
  match amount with
  | some amount => if amount.isZero then usual else amount
  | none => usual

def Options.ofGiven (rate count canvas : Option Amount) (parallel : Bool) (workers : Option Amount) :
    Options where
  rate := orUsual rate (.whole 8)
  count := count
  canvas := orUsual canvas (.whole 512)
  parallel := parallel
  workers := workers

inductive CompileError
  | style (error : StyleError)
  | timeline (error : TimelineError)
  | noWorkers
  deriving DecidableEq, Repr

def size (frame : Frame) : Nat := Text.byteLength frame.data

/-- The document at an instant. Animations without keyframes are passed over. -/
def render (canvas : Amount) (keyframes : Table (List Stop)) (animations : Table Animation)
    (document : Text) (time : Float) : Except NumberError Text := do
  let drawn ← animations.foldlM (fun document (_, animation) => do
      match keyframes.get? animation.name with
      | none | some [] => return document
      | some stops =>
        let properties ← atTime animation stops time
        animation.selectors.foldlM (fun document selector => present canvas document selector properties)
          document)
    document
  return removeStyles drawn

def mostFrames : Nat := pow2 60

def timelineError (error : NumberError) : CompileError := .timeline (.number error)

def still (document : Text) : Frame := ⟨document, 0.0, 0.0, 0⟩

def animate (options : Options) (keyframes : Table (List Stop)) (animations : Table Animation)
    (document : Text) : Except CompileError (List Frame) := do
  let total := Timeline.total (animations.map (·.2.duration))
  let count ← (Timeline.frameCount total options.rate options.count).mapError timelineError
  if (mostFrames : Int) ≤ count then throw (.timeline .tooManyFrames)
  if count ≤ 0 then throw (.timeline .noFrames)
  let count := count.toNat
  if options.parallel && 1 < count && options.workers.any (·.isZeroOrLess) then throw .noWorkers
  let duration := total / count.toFloat
  (Timeline.instants total count).zipIdx.mapM fun (time, index) => do
    let data ← (render options.canvas keyframes animations document time).mapError timelineError
    return ⟨data, time, duration, index⟩

/-- The frames of a document. Without style, keyframes or animations it is one frame, unchanged. -/
def compile (options : Options) (document : Text) : Except CompileError (List Frame) := do
  match styleContent? document with
  | none | some [] => return [still document]
  | some css =>
    let keyframes := Css.keyframes css
    let animations ← (Css.animations css).mapError .style
    if keyframes.isEmpty || animations.isEmpty then return [still document]
    animate options keyframes animations document

end Frame
end Flipbook
