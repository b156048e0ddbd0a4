import Flipbook.Proofs.Frame.Instants
import Flipbook.Proofs.Markup.Rejoined

namespace Flipbook.Frame

open Css Markup

/-- The document at an instant with its styles still in it. -/
def drawing (canvas : Amount) (keyframes : Table (List Stop)) (animations : Table Animation) (document : Text)
    (time : Float) : Except NumberError Text :=
  animations.foldlM (fun document (_, animation) => do
      match keyframes.get? animation.name with
      | none | some [] => return document
      | some stops =>
        let properties ← atTime animation stops time
        animation.selectors.foldlM (fun document selector => present canvas document selector properties)
          document)
    document

/-- The drawing of a document at an instant, by its own style. -/
def Draws (options : Options) (document : Text) (time : Float) (drawn : Text) : Prop :=
  ∃ css animations, styleContent? document = some css ∧ Css.animations css = .ok animations ∧
    drawing options.canvas (Css.keyframes css) animations document time = .ok drawn

theorem render_eq (canvas : Amount) (keyframes : Table (List Stop)) (animations : Table Animation) (document : Text)
    (time : Float) : render canvas keyframes animations document time =
      drawing canvas keyframes animations document time >>= fun drawn => .ok (removeStyles drawn) := rfl

theorem drawing_of_mem_animate {options : Options} {keyframes : Table (List Stop)} {animations : Table Animation}
    {document : Text} {frames : List Frame} (animated : animate options keyframes animations document = .ok frames)
    {frame : Frame} (member : frame ∈ frames) :
    ∃ drawn, drawing options.canvas keyframes animations document frame.timestamp = .ok drawn ∧
      frame.data = removeStyles drawn := by
  obtain ⟨count, -, shown⟩ := animate_ok animated
  obtain ⟨instant, -, data, computed, rfl⟩ := exists_of_mem_forall₂ shown member
  rw [render_eq] at computed
  obtain ⟨drawn, draws, shape⟩ := bind_eq_ok computed
  cases shape
  exact ⟨drawn, draws, rfl⟩

theorem compile_of_styleless {options : Options} {document : Text} (styleless : styleContent? document = none) :
    compile options document = .ok [still document] := by
  unfold compile
  rw [styleless]
  rfl

theorem still_or_drawn {options : Options} {document : Text} {frames : List Frame}
    (compiled : compile options document = .ok frames) {frame : Frame} (member : frame ∈ frames) :
    frames = [still document] ∨
      ∃ drawn, Draws options document frame.timestamp drawn ∧ frame.data = removeStyles drawn := by
  rcases still_or_animated compiled with same | ⟨css, animations, styled, parsed, animated⟩
  · exact .inl same
  · obtain ⟨drawn, draws, data⟩ := drawing_of_mem_animate animated member
    exact .inr ⟨drawn, ⟨css, animations, styled, parsed, draws⟩, data⟩

/-- A frame of a document is compiled to itself, or it is a drawing in which the texts around a removed style
    make a new one. -/
theorem compile_frame {options : Options} {document : Text} {frames : List Frame}
    (compiled : compile options document = .ok frames) {frame : Frame} (member : frame ∈ frames) :
    compile options frame.data = .ok [still frame.data] ∨
      ∃ drawn, Draws options document frame.timestamp drawn ∧ frame.data = removeStyles drawn ∧ Rejoins drawn := by
  rcases still_or_drawn compiled member with same | ⟨drawn, draws, data⟩
  · left
    rw [same] at compiled member
    rw [List.mem_singleton.mp member]
    exact compiled
  · rw [data]
    by_cases rejoins : Rejoins drawn
    · exact .inr ⟨drawn, draws, rfl, rejoins⟩
    · left
      refine compile_of_styleless ?_
      rw [← isSome_styleContent?_removeStyles] at rejoins
      simpa using rejoins

def sliding : Text :=
  "<svg><style>@keyframes slide{from{x:0}to{x:8}}rect{animation:slide 1s}</style><rect/></svg>".toList

def inTwoFrames : Options where
  count := some (.whole 2)

theorem compile_frame_sliding : ∃ frames, compile inTwoFrames sliding = .ok frames ∧ frames.length = 2 ∧
    ∀ frame ∈ frames, compile inTwoFrames frame.data = .ok [still frame.data] ∨
      ∃ drawn, Draws inTwoFrames sliding frame.timestamp drawn ∧ frame.data = removeStyles drawn ∧ Rejoins drawn := by
  have two : (compile inTwoFrames sliding).toOption.map List.length = some 2 := by decide +kernel
  cases compiled : compile inTwoFrames sliding with
  | error e =>
    rw [compiled] at two
    cases two
  | ok frames =>
    rw [compiled] at two
    exact ⟨frames, rfl, Option.some.inj two, fun frame member => compile_frame compiled member⟩

-- In the comment one style is removed from within the opening of another.
example :
    let style := "style>@keyframes k{from{x:0}to{x:1}}g{animation:k 1s}</style>"
    let texts (document : String) := (compile { count := some (.whole 1) } document.toList).toOption.map fun frames =>
      frames.map fun frame => String.ofList frame.data
    texts ("<svg><!--<<" ++ style ++ style ++ "--><g/></svg>") =
        some ["<svg><!--<" ++ style ++ "--><g x=\"0\"/></svg>"] ∧
      texts ("<svg><!--<" ++ style ++ "--><g x=\"0\"/></svg>") = some ["<svg><!----><g x=\"0\"/></svg>"] := by
  decide +kernel

end Flipbook.Frame
