import Flipbook.Frame.Compile
import Flipbook.Proofs.Outcome

namespace Flipbook.Frame

open Css Markup

def Shows (options : Options) (keyframes : Table (List Stop)) (animations : Table Animation) (document : Text)
    (duration : Float) (instant : Float × Nat) (frame : Frame) : Prop :=
  ∃ data, render options.canvas keyframes animations document instant.1 = .ok data ∧
    frame = ⟨data, instant.1, duration, instant.2⟩

def total (animations : Table Animation) : Float := Timeline.total (animations.map (·.2.duration))

variable {options : Options} {document : Text} {frames : List Frame}

theorem animate_ok {keyframes : Table (List Stop)} {animations : Table Animation}
    (animated : animate options keyframes animations document = .ok frames) :
    ∃ count : Nat, 0 < count ∧
      List.Forall₂ (Shows options keyframes animations document (total animations / count.toFloat))
        (Timeline.instants (total animations) count).zipIdx frames := by
  obtain ⟨count, -, animated⟩ := bind_eq_ok animated
  by_cases tooMany : (mostFrames : Int) ≤ count
  · rw [if_pos tooMany] at animated
    cases animated
  · rw [if_neg tooMany] at animated
    by_cases none : count ≤ 0
    · rw [if_pos none] at animated
      cases animated
    · rw [if_neg none] at animated
      dsimp only at animated
      split at animated
      · cases animated
      · refine ⟨count.toNat, by omega, (forall₂_of_mapM animated).imp ?_⟩
        intro instant frame rendered
        obtain ⟨data, computed, same⟩ := bind_eq_ok rendered
        cases same
        exact ⟨data, mapError_eq_ok.mp computed, rfl⟩

theorem still_or_animated (compiled : compile options document = .ok frames) :
    frames = [still document] ∨ ∃ css animations, styleContent? document = some css ∧
      Css.animations css = .ok animations ∧
        animate options (Css.keyframes css) animations document = .ok frames := by
  have single (same : Except.ok [still document] = (.ok frames : Except CompileError (List Frame))) :
      frames = [still document] := (Except.ok.inj same).symm
  unfold compile at compiled
  cases styled : styleContent? document with
  | none =>
    rw [styled] at compiled
    exact .inl (single compiled)
  | some css =>
    cases css with
    | nil =>
      rw [styled] at compiled
      exact .inl (single compiled)
    | cons c css =>
      rw [styled] at compiled
      obtain ⟨animations, parsed, compiled⟩ := bind_eq_ok compiled
      split at compiled
      · exact .inl (single compiled)
      · exact .inr ⟨c :: css, animations, rfl, mapError_eq_ok.mp parsed, compiled⟩

theorem map_index_of_shows {keyframes : Table (List Stop)} {animations : Table Animation} {duration : Float}
    {instants : List (Float × Nat)}
    (shown : List.Forall₂ (Shows options keyframes animations document duration) instants frames) :
    frames.map Frame.index = instants.map (·.2) := by
  induction shown with
  | nil => rfl
  | cons first _ ih =>
    obtain ⟨data, -, rfl⟩ := first
    rw [List.map_cons, List.map_cons, ih]

theorem map_index_compile (compiled : compile options document = .ok frames) :
    frames.map Frame.index = List.range frames.length := by
  rcases still_or_animated compiled with rfl | ⟨css, animations, -, -, animated⟩
  · rfl
  · obtain ⟨count, -, shown⟩ := animate_ok animated
    rw [map_index_of_shows shown, ← shown.length_eq, List.length_zipIdx, List.zipIdx_map_snd,
      List.range_eq_range']

theorem compile_ne_nil (compiled : compile options document = .ok frames) : frames ≠ [] := by
  rcases still_or_animated compiled with rfl | ⟨css, animations, -, -, animated⟩
  · simp
  · obtain ⟨count, positive, shown⟩ := animate_ok animated
    have length : count = frames.length := by
      rw [← shown.length_eq]
      simp [Timeline.instants]
    rintro rfl
    exact absurd length (Nat.ne_of_gt positive)

end Flipbook.Frame
