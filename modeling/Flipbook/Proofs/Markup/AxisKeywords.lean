import Flipbook.Markup.Origin
import Flipbook.Proofs.Number.RangeEnds
import Flipbook.Proofs.Outcome
import Flipbook.Proofs.Text.Pieces

namespace Flipbook.Markup

open Text Binary64

/-- A place on an edge of the canvas, counted from the left or from the top. -/
inductive Place
  | near
  | middle
  | far
  deriving DecidableEq, Repr

namespace Place

def horizontal : Place → Text
  | near => "left".toList
  | middle => "center".toList
  | far => "right".toList

def vertical : Place → Text
  | near => "top".toList
  | middle => "center".toList
  | far => "bottom".toList

def coordinate (canvas : Amount) : Place → Except NumberError Float
  | near => return 0.0
  | middle => return (← canvas.toFloat) / 2.0
  | far => canvas.toFloat

end Place

def pointAt (canvas : Amount) (x y : Place) : Except NumberError (Option Point) := do
  return some (← x.coordinate canvas, ← y.coordinate canvas)

section Reading

variable {canvas : Amount} {t : Text}

theorem originCoordinate_keyword {place : Place} (keyword : t = place.horizontal ∨ t = place.vertical) :
    originCoordinate canvas t = (place.coordinate canvas).map some := by
  rcases keyword with rfl | rfl
  all_goals
    cases place with
    | near => rfl
    | middle =>
      change (canvas.toFloat >>= fun edge => pure (some (edge / 2.0))) =
        (canvas.toFloat >>= fun edge => pure (edge / 2.0)).map some
      cases canvas.toFloat <;> rfl
    | far =>
      change (canvas.toFloat >>= fun edge => pure (some edge)) = canvas.toFloat.map some
      cases canvas.toFloat <;> rfl

theorem origin_of_keywords {first second : Text} {x y : Place} (written : words t = [first, second])
    (keyword : first = x.horizontal ∨ first = x.vertical) (keyword' : second = y.horizontal ∨ second = y.vertical) :
    origin canvas t = pointAt canvas x y := by
  unfold origin pointAt
  simp only [written, originCoordinate_keyword keyword, originCoordinate_keyword keyword']
  cases x.coordinate canvas with
  | error e => rfl
  | ok left => cases y.coordinate canvas <;> rfl

theorem pivot_congr {t' transform : Text} (some : words t ≠ []) (some' : words t' ≠ [])
    (same : origin canvas t = origin canvas t') :
    pivot canvas transform (.some t) = pivot canvas transform (.some t') := by
  cases t with
  | nil => exact absurd rfl some
  | cons c rest =>
    cases t' with
    | nil => exact absurd rfl some'
    | cons c' rest' =>
      unfold pivot
      simp only [same]

end Reading

theorem value_half_edge {edge : Float} (finite : isFinite edge) (some : 2 ^ (-1074 : Int) < value edge) :
    0 < value (edge / 2.0) ∧ value (edge / 2.0) < value edge := by
  have two : isFinite 2.0 := by decide +kernel
  have value_two : value 2.0 = 2 := by decide +kernel
  have least := two_zpow_pos (-1074)
  have positive : 0 < value edge := least.trans some
  have rounds : Rounds (edge / 2.0) (value edge / 2) := by
    rw [← value_two]
    exact rounds_div finite two (by rw [value_two]; exact two_ne_zero)
  have inside : InRange (value edge / 2) := by
    have below := value_lt (unsigned_of_pos finite ((pos_iff_value finite).mpr positive))
    have twice : (2 : ℚ) ^ 1024 = 2 * 2 ^ 1023 := pow_succ' 2 1023
    have room : (2 : ℚ) ^ 970 ≤ 2 ^ 1023 := pow_le_pow_right₀ one_le_two (by decide)
    rw [InRange, abs_of_pos (half_pos positive), twice]
    rw [twice] at below
    clear twice
    generalize (2 : ℚ) ^ 1023 = most at *
    generalize (2 : ℚ) ^ 970 = step at *
    linarith
  have same := (rounds.value_eq (rounds.isFinite_iff.mpr inside)).1
  have above : 0 < rounding (value edge / 2) := by
    have half : (2 : ℚ) ^ (-1075 : Int) = 2 ^ (-1074 : Int) / 2 := zpow_sub_one₀ two_ne_zero (-1074)
    rw [rounding_pos_iff, half]
    linarith
  have under := rounding_lt_double above
  rw [same]
  exact ⟨above, by linarith⟩

theorem exists_coordinate {canvas : Amount} {edge : Float} (measured : canvas.toFloat = .ok edge) (place : Place) :
    ∃ p, place.coordinate canvas = .ok p := by
  cases place with
  | near => exact ⟨0.0, rfl⟩
  | middle =>
    rw [Place.coordinate, measured]
    exact ⟨edge / 2.0, rfl⟩
  | far => exact ⟨edge, measured⟩

theorem coordinate_inj {canvas : Amount} {edge : Float} (measured : canvas.toFloat = .ok edge) (finite : isFinite edge)
    (some : 2 ^ (-1074 : Int) < value edge) {x y : Place} : x.coordinate canvas = y.coordinate canvas ↔ x = y := by
  obtain ⟨above, below⟩ := value_half_edge finite some
  have zero : value 0.0 = 0 := by decide +kernel
  have near_ne_middle : (0.0 : Float) ≠ edge / 2.0 := by
    intro same
    rw [← same, zero] at above
    exact above.ne rfl
  have middle_ne_far : edge / 2.0 ≠ edge := by
    intro same
    rw [same] at below
    exact below.ne rfl
  have near_ne_far : (0.0 : Float) ≠ edge := by
    intro same
    have positive := above.trans below
    rw [← same, zero] at positive
    exact positive.ne rfl
  have near : Place.near.coordinate canvas = .ok 0.0 := rfl
  have middle : Place.middle.coordinate canvas = .ok (edge / 2.0) := by
    rw [Place.coordinate, measured]
    rfl
  have far : Place.far.coordinate canvas = .ok edge := measured
  cases x <;> cases y <;> simp [near, middle, far, near_ne_middle, middle_ne_far, near_ne_far, near_ne_middle.symm,
    middle_ne_far.symm, near_ne_far.symm]

/-- A pair of keywords is read by position. With the horizontal keyword first it is the point that they name. The other
    way round each is taken for the other axis, so that the pair is read as the mirrored one and folded as it is, and
    the points are the same only if both keywords name the same place on their edges. -/
theorem origin_reversed {canvas : Amount} {x y : Place} {inOrder reversed mirrored : Text}
    (written : words inOrder = [x.horizontal, y.vertical]) (written' : words reversed = [y.vertical, x.horizontal])
    (mirrors : words mirrored = [y.horizontal, x.vertical]) :
    origin canvas inOrder = pointAt canvas x y ∧ origin canvas reversed = pointAt canvas y x ∧
      (∀ transform, pivot canvas transform (some reversed) = pivot canvas transform (some mirrored)) ∧
      ∀ edge, canvas.toFloat = .ok edge → isFinite edge → 2 ^ (-1074 : Int) < value edge →
        (origin canvas reversed = origin canvas inOrder ↔ x = y) := by
  have inPlace : origin canvas inOrder = pointAt canvas x y := origin_of_keywords written (.inl rfl) (.inr rfl)
  have exchanged : origin canvas reversed = pointAt canvas y x := origin_of_keywords written' (.inr rfl) (.inl rfl)
  have same : origin canvas mirrored = pointAt canvas y x := origin_of_keywords mirrors (.inl rfl) (.inr rfl)
  refine ⟨inPlace, exchanged, fun transform => ?_, fun edge measured finite large => ?_⟩
  · exact pivot_congr (by simp [written']) (by simp [mirrors]) (exchanged.trans same.symm)
  · obtain ⟨left, first⟩ := exists_coordinate measured x
    obtain ⟨top, second⟩ := exists_coordinate measured y
    have point : pointAt canvas x y = .ok (some (left, top)) := by
      rw [pointAt, first, second]
      rfl
    have point' : pointAt canvas y x = .ok (some (top, left)) := by
      rw [pointAt, first, second]
      rfl
    rw [inPlace, exchanged, ← coordinate_inj measured finite large, point, point', first, second]
    simp only [Except.ok.injEq, Option.some.injEq, Prod.mk.injEq]
    exact ⟨And.right, fun same => ⟨same.symm, same⟩⟩

theorem origin_reversed_bottomLeft :
    words "left bottom".toList = [Place.near.horizontal, Place.far.vertical] ∧
      words "bottom left".toList = [Place.far.vertical, Place.near.horizontal] ∧
      words "right top".toList = [Place.far.horizontal, Place.near.vertical] ∧
      origin (.whole 512) "bottom left".toList = .ok (some (512.0, 0.0)) ∧
      origin (.whole 512) "bottom left".toList ≠ origin (.whole 512) "left bottom".toList ∧
      pivot (.whole 512) "scale(2)".toList (some "bottom left".toList) =
        .ok "translate(512,0) scale(2) translate(-512,0)".toList := by
  have written : words "left bottom".toList = [Place.near.horizontal, Place.far.vertical] := by decide +kernel
  have written' : words "bottom left".toList = [Place.far.vertical, Place.near.horizontal] := by decide +kernel
  have mirrors : words "right top".toList = [Place.far.horizontal, Place.near.vertical] := by decide +kernel
  have measured : (Amount.whole 512).toFloat = .ok 512.0 := by decide +kernel
  have finite : isFinite 512.0 := by decide +kernel
  have large : 2 ^ (-1074 : Int) < value 512.0 := by decide +kernel
  obtain ⟨-, exchanged, folded, same⟩ := origin_reversed written written' mirrors
  refine ⟨written, written', mirrors, exchanged.trans (by decide +kernel), fun equal => ?_,
    (folded "scale(2)".toList).trans (by decide +kernel)⟩
  cases (same 512.0 measured finite large).mp equal

end Flipbook.Markup
