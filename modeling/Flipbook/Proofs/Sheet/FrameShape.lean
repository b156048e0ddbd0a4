import Flipbook.Proofs.Sheet.Tiles
import Flipbook.Proofs.Outcome
import Flipbook.Proofs.Sheet.PixelText

namespace Flipbook.Sheet

open Text Markup Binary64

/-- The view box has these sides, and they are positive. -/
structure BoxSides (attributes : Table Text) (width height : Float) : Prop where
  box : ∃ t, attributes.get? "viewBox".toList = some t ∧ viewBoxSize? t = some (width, height)
  width : 0.0 < width
  height : 0.0 < height

def HasLength (attributes : Table Text) (name : String) (x : Float) : Prop :=
  ∃ t number, attributes.get? name.toList = some t ∧ InPixels t number ∧ toFloat? number = some x

def HasBrokenLength (attributes : Table Text) (name : String) : Prop :=
  ∃ t number, attributes.get? name.toList = some t ∧ InPixels t number ∧ ¬IsDecimal number

/-- The root has positive sides, by its view box or else by its lengths. -/
inductive Sides (frame : Text) (width height : Float) : Prop
  | box {tag : Tag} (root : rootTag? frame = some tag) (sides : BoxSides tag.attributeMap width height)
  | lengths {tag : Tag} (root : rootTag? frame = some tag) (noBox : ∀ w h, ¬BoxSides tag.attributeMap w h)
      (wide : HasLength tag.attributeMap "width" width) (high : HasLength tag.attributeMap "height" height)
      (positive : 0.0 < width ∧ 0.0 < height)

/-- The root has no box with positive sides, and a length that is no number. -/
def Malformed (frame : Text) : Prop :=
  ∃ tag, rootTag? frame = some tag ∧ (∀ w h, ¬BoxSides tag.attributeMap w h) ∧
    (HasBrokenLength tag.attributeMap "width" ∨ HasBrokenLength tag.attributeMap "height")

/-- The quotient of the sides is rounded to a positive double. -/
structure FitsRatio (width height : Float) : Prop where
  finiteWidth : isFinite width
  finiteHeight : isFinite height
  above : 2 ^ (-1075 : Int) < value height / value width
  below : InRange (value height / value width)

section Attributes

variable {attributes : Table Text}

theorem viewBoxRatio?_eq_some_iff {ratio : Float} :
    viewBoxRatio? attributes = some ratio ↔ ∃ width height, BoxSides attributes width height ∧ ratio = height / width := by
  unfold viewBoxRatio?
  simp only [Option.bind_eq_bind, Option.bind_eq_some_iff]
  constructor
  · rintro ⟨t, found, ⟨width, height⟩, size, chosen⟩
    split at chosen
    · rename_i positive
      cases chosen
      exact ⟨width, height, ⟨⟨t, found, size⟩, positive.1, positive.2⟩, rfl⟩
    · cases chosen
  · rintro ⟨width, height, ⟨⟨t, found, size⟩, wide, high⟩, rfl⟩
    exact ⟨t, found, (width, height), size, if_pos ⟨wide, high⟩⟩

theorem viewBoxRatio?_eq_none_iff : viewBoxRatio? attributes = none ↔ ∀ w h, ¬BoxSides attributes w h := by
  rw [Option.eq_none_iff_forall_ne_some]
  constructor
  · intro none width height sides
    exact none _ (viewBoxRatio?_eq_some_iff.mpr ⟨width, height, sides, rfl⟩)
  · intro none ratio found
    obtain ⟨width, height, sides, -⟩ := viewBoxRatio?_eq_some_iff.mp found
    exact none width height sides

variable {name : String}

theorem length?_eq_some_iff {x : Float} : length? attributes name = .ok (some x) ↔ HasLength attributes name x := by
  unfold length? HasLength
  cases attributes.get? name.toList with
  | none => simp [pure, Except.pure]
  | some t => simp [pixels_eq_some_iff]

theorem length?_eq_error_iff : length? attributes name = .error .malformedLength ↔ HasBrokenLength attributes name := by
  unfold length? HasBrokenLength
  cases attributes.get? name.toList with
  | none => simp [pure, Except.pure]
  | some t => simp [pixels_eq_error_iff]

theorem exists_length? (noBroken : ¬HasBrokenLength attributes name) : ∃ x?, length? attributes name = .ok x? := by
  cases length : length? attributes name with
  | ok x? => exact ⟨x?, rfl⟩
  | error e =>
    cases e
    exact absurd (length?_eq_error_iff.mp length) noBroken

theorem HasLength.pos {x : Float} (length : HasLength attributes name x) (nonzero : (x == 0.0) = false) : 0.0 < x := by
  obtain ⟨t, number, -, inPixels, read⟩ := length
  rcases toFloat?_numeral inPixels.char with ⟨⟨size, value⟩, -⟩ | ⟨unread, -⟩
  · rw [value] at read
    cases read
    exact toFloat_pos nonzero
  · rw [unread] at read
    cases read

end Attributes

section Frames

variable {frame : Text} {tag : Tag}

theorem aspect_of_box (root : rootTag? frame = some tag) {width height : Float}
    (sides : BoxSides tag.attributeMap width height) : aspect frame = .ok (height / width) := by
  unfold aspect
  simp only [root, viewBoxRatio?_eq_some_iff.mpr ⟨width, height, sides, rfl⟩]
  rfl

theorem aspect_of_noBox (root : rootTag? frame = some tag) (noBox : ∀ w h, ¬BoxSides tag.attributeMap w h) :
    aspect frame = (length? tag.attributeMap "width").bind fun width =>
      (length? tag.attributeMap "height").bind fun height =>
        match width, height with
        | some width, some height => .ok (if width == 0.0 ∨ height == 0.0 then 1.0 else height / width)
        | _, _ => .ok 1.0 := by
  unfold aspect
  simp only [root, viewBoxRatio?_eq_none_iff.mpr noBox]
  rfl

theorem Sides.positive {width height : Float} (sides : Sides frame width height) : 0.0 < width ∧ 0.0 < height := by
  cases sides with
  | box root sides => exact ⟨sides.width, sides.height⟩
  | lengths root noBox wide high positive => exact positive

theorem aspect_of_sides {width height : Float} (sides : Sides frame width height) : aspect frame = .ok (height / width) := by
  cases sides with
  | box root sides => exact aspect_of_box root sides
  | lengths root noBox wide high positive =>
    rw [aspect_of_noBox root noBox, length?_eq_some_iff.mpr wide, length?_eq_some_iff.mpr high]
    simp only [Except.bind]
    rw [if_neg]
    rw [beq_zero_of_pos positive.1, beq_zero_of_pos positive.2]
    decide

theorem aspect_of_malformed (malformed : Malformed frame) : aspect frame = .error .malformedLength := by
  obtain ⟨tag, root, noBox, broken⟩ := malformed
  rw [aspect_of_noBox root noBox]
  rcases broken with wide | high
  · rw [length?_eq_error_iff.mpr wide]
    rfl
  · rw [length?_eq_error_iff.mpr high]
    cases length? tag.attributeMap "width" with
    | error e => cases e; rfl
    | ok width => rfl

theorem aspect_of_noSides (wellFormed : ¬Malformed frame) (noSides : ∀ w h, ¬Sides frame w h) : aspect frame = .ok 1.0 := by
  cases root : rootTag? frame with
  | none =>
    unfold aspect
    rw [root]
    rfl
  | some tag =>
    have noBox : ∀ w h, ¬BoxSides tag.attributeMap w h := fun w h sides => noSides w h (.box root sides)
    obtain ⟨width?, wide⟩ := exists_length? fun broken => wellFormed ⟨tag, root, noBox, .inl broken⟩
    obtain ⟨height?, high⟩ := exists_length? fun broken => wellFormed ⟨tag, root, noBox, .inr broken⟩
    rw [aspect_of_noBox root noBox, wide, high]
    cases width? with
    | none => rfl
    | some width =>
      cases height? with
      | none => rfl
      | some height =>
        apply congrArg Except.ok
        apply if_pos
        by_contra nonzero
        rw [not_or, Bool.not_eq_true, Bool.not_eq_true] at nonzero
        have wide' := length?_eq_some_iff.mp wide
        have high' := length?_eq_some_iff.mp high
        exact noSides width height (.lengths root noBox wide' high' ⟨wide'.pos nonzero.1, high'.pos nonzero.2⟩)

theorem aspect_cases (frame : Text) :
    Malformed frame ∧ aspect frame = .error .malformedLength ∨
    (∃ width height, Sides frame width height ∧ aspect frame = .ok (height / width)) ∨
      ¬Malformed frame ∧ (∀ w h, ¬Sides frame w h) ∧ aspect frame = .ok 1.0 := by
  by_cases malformed : Malformed frame
  · exact .inl ⟨malformed, aspect_of_malformed malformed⟩
  by_cases sides : ∃ width height, Sides frame width height
  · obtain ⟨width, height, sides⟩ := sides
    exact .inr (.inl ⟨width, height, sides, aspect_of_sides sides⟩)
  · have noSides : ∀ w h, ¬Sides frame w h := fun w h found => sides ⟨w, h, found⟩
    exact .inr (.inr ⟨malformed, noSides, aspect_of_noSides malformed noSides⟩)

theorem aspect_eq_error_iff : aspect frame = .error .malformedLength ↔ Malformed frame := by
  refine ⟨fun failed => ?_, aspect_of_malformed⟩
  rcases aspect_cases frame with ⟨malformed, -⟩ | ⟨width, height, -, shape⟩ | ⟨-, -, square⟩
  · exact malformed
  · rw [shape] at failed
    cases failed
  · rw [square] at failed
    cases failed

theorem pos_div_iff_fitsRatio {width height : Float} (sides : Sides frame width height) :
    isFinite (height / width) ∧ 0.0 < height / width ↔ FitsRatio width height := by
  rw [pos_div_iff sides.positive.2 sides.positive.1]
  exact ⟨fun ⟨high, wide, above, below⟩ => ⟨wide, high, above, below⟩,
    fun fits => ⟨fits.finiteHeight, fits.finiteWidth, fits.above, fits.below⟩⟩

theorem aspect_pos_iff : (∃ ratio, aspect frame = .ok ratio ∧ isFinite ratio ∧ 0.0 < ratio) ↔
    ¬Malformed frame ∧ ∀ width height, Sides frame width height → FitsRatio width height := by
  constructor
  · rintro ⟨ratio, shape, usable⟩
    refine ⟨fun malformed => ?_, fun width height sides => ?_⟩
    · rw [aspect_of_malformed malformed] at shape
      cases shape
    · rw [aspect_of_sides sides] at shape
      cases shape
      exact (pos_div_iff_fitsRatio sides).mp usable
  · rintro ⟨wellFormed, fits⟩
    rcases aspect_cases frame with ⟨malformed, -⟩ | ⟨width, height, sides, shape⟩ | ⟨-, -, square⟩
    · exact absurd malformed wellFormed
    · exact ⟨_, shape, (pos_div_iff_fitsRatio sides).mpr (fits width height sides)⟩
    · exact ⟨_, square, isFinite_of_unsigned unsigned_one, by decide +kernel⟩

theorem heightFor_ok_iff {width : Int} : (∃ height, heightFor width frame = .ok height) ↔
    ∃ ratio, aspect frame = .ok ratio ∧ isFinite ratio ∧ InRange width ∧ InRange (rounding width * value ratio) := by
  constructor
  · rintro ⟨height, computed⟩
    obtain ⟨ratio, shape, computed⟩ := bind_eq_ok computed
    obtain ⟨number, nearest, rounded⟩ := bind_eq_ok computed
    rw [mapError_eq_ok] at shape nearest rounded
    obtain ⟨finite, same⟩ := value_ofInt nearest
    have product := (isFinite_mul_iff finite).mp (roundEven_ok_iff.mp ⟨height, rounded⟩)
    rw [same] at product
    exact ⟨ratio, shape, product.1, ofInt_ok_iff.mp ⟨number, nearest⟩, product.2⟩
  · rintro ⟨ratio, shape, finite', inside, product⟩
    obtain ⟨number, nearest⟩ := ofInt_ok_iff.mpr inside
    obtain ⟨finite, same⟩ := value_ofInt nearest
    rw [← same] at product
    obtain ⟨height, rounded⟩ := roundEven_ok_iff.mpr ((isFinite_mul_iff finite).mpr ⟨finite', product⟩)
    refine ⟨height, ?_⟩
    rw [heightFor, mapError_eq_ok.mpr shape, ok_bind, mapError_eq_ok.mpr nearest, ok_bind]
    exact mapError_eq_ok.mpr rounded

theorem heightFor_error {width : Int} {e : SheetError} (failed : heightFor width frame = .error e) :
    (∃ cause, e = .aspect cause) ∨ ∃ cause, e = .number cause := by
  rcases bind_eq_error.mp failed with shape | ⟨ratio, -, failed⟩
  · obtain ⟨cause, -, rfl⟩ := mapError_eq_error.mp shape
    exact .inl ⟨cause, rfl⟩
  · rcases bind_eq_error.mp failed with number | ⟨number, -, rounded⟩
    · obtain ⟨cause, -, rfl⟩ := mapError_eq_error.mp number
      exact .inr ⟨cause, rfl⟩
    · obtain ⟨cause, -, rfl⟩ := mapError_eq_error.mp rounded
      exact .inr ⟨cause, rfl⟩

variable [Writer] {columns : Option Int} {width height : Int} {frames : List Text}

theorem build_eq_bind : build ⟨columns, width, none⟩ (frame :: frames) =
    heightFor width frame >>= fun height => build ⟨columns, width, some height⟩ (frame :: frames) := by
  unfold build layout
  simp only
  cases heightFor width frame <;> rfl

theorem build_ne_of_heightFor {e : SheetError} (failed : heightFor width frame = .error e) :
    build ⟨columns, width, some height⟩ (frame :: frames) ≠ .error e := by
  obtain ⟨grid, laid⟩ : ∃ grid, layout ⟨columns, width, some height⟩ (frame :: frames) = .ok grid := ⟨_, rfl⟩
  intro same
  rw [build_of_layout laid] at same
  have unlike : e ≠ .unwritable ∧ e ≠ .refused := by
    rcases heightFor_error failed with ⟨cause, rfl⟩ | ⟨cause, rfl⟩ <;> exact ⟨nofun, nofun⟩
  split at same
  · split at same
    · cases same
    · exact unlike.2 (Except.error.inj same).symm
  · exact unlike.1 (Except.error.inj same).symm

theorem build_finds_height_iff :
    (∃ height, build ⟨columns, width, none⟩ (frame :: frames) = build ⟨columns, width, some height⟩ (frame :: frames)) ↔
      ∃ height, heightFor width frame = .ok height := by
  rw [build_eq_bind]
  cases found : heightFor width frame with
  | error e => exact iff_of_false (fun ⟨_, same⟩ => build_ne_of_heightFor found same.symm) fun ⟨_, same⟩ => by cases same
  | ok height => exact iff_of_true ⟨height, rfl⟩ ⟨height, rfl⟩

end Frames

/-- The shape of a frame fails just for a malformed length, it is a positive number just if its sides have such a
    quotient, and a sheet finds a height by it just if the height is not beyond the doubles. -/
theorem aspect_usable_iff [Writer] (frame : Text) :
    (aspect frame = .error .malformedLength ↔ Malformed frame) ∧
    ((∃ ratio, aspect frame = .ok ratio ∧ isFinite ratio ∧ 0.0 < ratio) ↔
      ¬Malformed frame ∧ ∀ width height, Sides frame width height → FitsRatio width height) ∧
    ∀ columns width frames,
      (∃ height, build ⟨columns, width, none⟩ (frame :: frames) = build ⟨columns, width, some height⟩ (frame :: frames)) ↔
        ∃ ratio, aspect frame = .ok ratio ∧ isFinite ratio ∧ InRange width ∧ InRange (rounding width * value ratio) :=
  ⟨aspect_eq_error_iff, aspect_pos_iff, fun _ _ _ => build_finds_height_iff.trans heightFor_ok_iff⟩

end Flipbook.Sheet
