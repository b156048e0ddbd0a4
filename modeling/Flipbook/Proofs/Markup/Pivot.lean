import Flipbook.Markup.Origin
import Flipbook.Proofs.Number.FourPlaces
import Flipbook.Proofs.Outcome

namespace Flipbook.Markup

open Text Binary64

variable {canvas : Amount} {transform about : Text} {x y : Float}

def shiftText (x y : Float) : Text := callText "translate".toList [sheetText x, sheetText y]

theorem shift_eq {point : Point} (rounded : Scalar.roundTo 4 point.1 = .ok x)
    (rounded' : Scalar.roundTo 4 point.2 = .ok y) : shift point = .ok (shiftText x y) := by
  unfold shift
  rw [rounded, rounded']
  rfl

theorem origin_nil : origin canvas [] = .ok none := rfl

theorem pivot_eq {there back : Text} (written : transform.all isBlank = false)
    (found : origin canvas about = .ok (some (x, y))) (first : shift (x, y) = .ok there)
    (last : shift (-x, -y) = .ok back) :
    pivot canvas transform (some about) = .ok (joinWith [' '] [there, transform, back]) := by
  cases about with
  | nil => cases origin_nil.symm.trans found
  | cons c rest =>
    unfold pivot
    simp only [written, found, Bool.false_eq_true, if_false, ok_bind, first, last]
    rfl

/-- A transform that is not blank is placed between two shifts, which are opposite in a coordinate, as numbers and as
    texts, exactly where that coordinate is not tilted. -/
theorem pivot_shifts (written : transform.all isBlank = false) (found : origin canvas about = .ok (some (x, y)))
    (finite : isFinite (x * 10000.0)) (finite' : isFinite (y * 10000.0)) :
    ∃ x₁ y₁ x₂ y₂ : Float,
      pivot canvas transform (some about) =
        .ok (joinWith [' '] [shiftText x₁ y₁, transform, shiftText x₂ y₂]) ∧
      RoundedApart x x₁ x₂ ∧ RoundedApart y y₁ y₂ := by
  obtain ⟨x₁, x₂, apart⟩ := exists_roundedApart finite
  obtain ⟨y₁, y₂, apart'⟩ := exists_roundedApart finite'
  refine ⟨x₁, y₁, x₂, y₂, ?_, apart, apart'⟩
  exact pivot_eq written found (shift_eq apart.there apart'.there) (shift_eq apart.back apart'.back)

theorem pivot_shifts_tilted :
    origin (.whole 512) "0.03125 0".toList = .ok (some (0.03125, 0.0)) ∧
      ∃ x₁ y₁ x₂ y₂ : Float,
        pivot (.whole 512) "scale(2)".toList (some "0.03125 0".toList) =
          .ok (joinWith [' '] [shiftText x₁ y₁, "scale(2)".toList, shiftText x₂ y₂]) ∧
        value x₂ ≠ -value x₁ ∧ Opposite (sheetText y₁) (sheetText y₂) := by
  have found : origin (.whole 512) "0.03125 0".toList = .ok (some (0.03125, 0.0)) := by decide +kernel
  have tilted : tilt |value (0.03125 * 10000.0)| = 1 := by decide +kernel
  have level : tilt |value (0.0 * 10000.0)| = 0 := by decide +kernel
  have written : "scale(2)".toList.all isBlank = false := by decide +kernel
  obtain ⟨x₁, y₁, x₂, y₂, placed, apart, apart'⟩ :=
    pivot_shifts written found (by decide +kernel) (by decide +kernel)
  refine ⟨found, x₁, y₁, x₂, y₂, placed, fun opposite => ?_, apart'.opposite_texts level⟩
  rw [apart.opposite_iff.mp opposite] at tilted
  cases tilted

end Flipbook.Markup
