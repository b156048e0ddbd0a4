import Flipbook.Proofs.Outcome
import Flipbook.Sheet.Build
import Mathlib.Algebra.Order.Ring.Rat
import Mathlib.Data.Rat.Cast.Order

namespace Flipbook.Sheet

namespace Tile

/-- The point lies in the tile. Its right and lower edges belong to its neighbours. -/
structure Covers (tile : Tile) (x y : ℚ) : Prop where
  left : tile.x ≤ x
  right : x < tile.x + tile.width
  top : tile.y ≤ y
  bottom : y < tile.y + tile.height

structure Inside (tile : Tile) (width height : Int) : Prop where
  left : 0 ≤ tile.x
  right : tile.x + tile.width ≤ width
  top : 0 ≤ tile.y
  bottom : tile.y + tile.height ≤ height

def Before (tile other : Tile) : Prop := tile.y < other.y ∨ tile.y = other.y ∧ tile.x < other.x

def Disjoint (tile other : Tile) : Prop := ∀ x y, ¬(tile.Covers x y ∧ other.Covers x y)

theorem disjoint_of_above {tile other : Tile} (above : tile.y + tile.height ≤ other.y) : tile.Disjoint other := by
  rintro x y ⟨covers, covers'⟩
  have edge : (tile.y : ℚ) + tile.height ≤ other.y := by exact_mod_cast above
  exact absurd (covers.bottom.trans_le (edge.trans covers'.top)) (lt_irrefl y)

theorem disjoint_of_beside {tile other : Tile} (beside : tile.x + tile.width ≤ other.x) : tile.Disjoint other := by
  rintro x y ⟨covers, covers'⟩
  have edge : (tile.x : ℚ) + tile.width ≤ other.x := by exact_mod_cast beside
  exact absurd (covers.right.trans_le (edge.trans covers'.left)) (lt_irrefl x)

end Tile

namespace Grid

structure Valid (grid : Grid) : Prop where
  frames : 1 ≤ grid.frames
  columns : 1 ≤ grid.columns
  frameWidth : 1 ≤ grid.frameWidth
  frameHeight : 1 ≤ grid.frameHeight

def column (grid : Grid) (index : Nat) : Int := index % grid.columns

def row (grid : Grid) (index : Nat) : Int := index / grid.columns

variable {grid : Grid} {i j : Nat}

theorem tile_eq (valid : grid.Valid) (i : Nat) :
    grid.tile i = ⟨grid.column i * grid.frameWidth, grid.row i * grid.frameHeight, grid.frameWidth, grid.frameHeight⟩ := by
  have columns := valid.columns
  rw [tile, Int.fmod_eq_emod_of_nonneg _ (by omega), Int.fdiv_eq_ediv_of_nonneg _ (by omega)]
  rfl

theorem column_add_row (grid : Grid) (i : Nat) : grid.column i + grid.columns * grid.row i = i :=
  Int.emod_add_mul_ediv ..

theorem column_mem (valid : grid.Valid) (i : Nat) : 0 ≤ grid.column i ∧ grid.column i < grid.columns := by
  have columns := valid.columns
  exact ⟨Int.emod_nonneg _ (by omega), Int.emod_lt_of_pos _ (by omega)⟩

theorem row_nonneg (valid : grid.Valid) (i : Nat) : 0 ≤ grid.row i := by
  have columns := valid.columns
  exact Int.ediv_nonneg (by omega) (by omega)

theorem column_le (valid : grid.Valid) (i : Nat) : grid.column i ≤ i := by
  have columns := valid.columns
  have rows : 0 ≤ grid.columns * grid.row i := Int.mul_nonneg (by omega) (row_nonneg valid i)
  have place := grid.column_add_row i
  omega

theorem row_mono (valid : grid.Valid) (less : i ≤ j) : grid.row i ≤ grid.row j := by
  have columns := valid.columns
  exact Int.ediv_le_ediv (by omega) (by omega)

theorem row_lt_or_column_lt (valid : grid.Valid) (less : i < j) :
    grid.row i < grid.row j ∨ grid.row i = grid.row j ∧ grid.column i < grid.column j := by
  rcases (row_mono valid less.le).lt_or_eq with later | same
  · exact .inl later
  · have place := grid.column_add_row i
    have place' := grid.column_add_row j
    rw [← same] at place'
    exact .inr ⟨same, by omega⟩

theorem rows_eq (valid : grid.Valid) : grid.rows = grid.row (grid.frames - 1) + 1 := by
  have columns := valid.columns
  have some := valid.frames
  have cells : (grid.frames : Int) + grid.columns - 1 = (grid.frames - 1 : Nat) + 1 * grid.columns := by omega
  rw [rows, Int.fdiv_eq_ediv_of_nonneg _ (by omega), cells, Int.add_mul_ediv_right _ _ (by omega)]
  rfl

theorem mul_add_le {a b extent : Int} (less : a < b) (some : 1 ≤ extent) : a * extent + extent ≤ b * extent := by
  have step : (a + 1) * extent ≤ b * extent := Int.mul_le_mul_of_nonneg_right less (by omega)
  rwa [Int.add_mul, Int.one_mul] at step

theorem mul_lt {a b extent : Int} (less : a < b) (some : 1 ≤ extent) : a * extent < b * extent :=
  Int.mul_lt_mul_of_pos_right less (by omega)

theorem tile_before (valid : grid.Valid) (less : i < j) : (grid.tile i).Before (grid.tile j) := by
  rw [tile_eq valid, tile_eq valid]
  rcases row_lt_or_column_lt valid less with later | ⟨same, right⟩
  · exact .inl (mul_lt later valid.frameHeight)
  · exact .inr ⟨congrArg (· * grid.frameHeight) same, mul_lt right valid.frameWidth⟩

theorem tile_disjoint (valid : grid.Valid) (less : i < j) : (grid.tile i).Disjoint (grid.tile j) := by
  rw [tile_eq valid, tile_eq valid]
  rcases row_lt_or_column_lt valid less with later | ⟨-, right⟩
  · exact Tile.disjoint_of_above (mul_add_le later valid.frameHeight)
  · exact Tile.disjoint_of_beside (mul_add_le right valid.frameWidth)

theorem tile_inside (valid : grid.Valid) (less : i < grid.frames) : (grid.tile i).Inside grid.width grid.height := by
  have column := column_mem valid i
  have index := column_le valid i
  have last := row_mono valid (Nat.le_sub_one_of_lt less)
  have rows := rows_eq valid
  have columnLess : grid.column i < min grid.columns grid.frames := lt_min column.2 (by omega)
  rw [tile_eq valid]
  exact {
    left := Int.mul_nonneg column.1 (Int.le_trans Int.one_nonneg valid.frameWidth)
    right := mul_add_le columnLess valid.frameWidth
    top := Int.mul_nonneg (row_nonneg valid i) (Int.le_trans Int.one_nonneg valid.frameHeight)
    bottom := mul_add_le (by omega) valid.frameHeight }

theorem width_le (valid : grid.Valid) {width : Int}
    (inside : ∀ i < grid.frames, (grid.tile i).x + (grid.tile i).width ≤ width) : grid.width ≤ width := by
  have columns := valid.columns
  have some := valid.frames
  obtain ⟨i, place⟩ : ∃ i : Nat, (i : Int) + 1 = min grid.columns grid.frames :=
    ⟨(min grid.columns grid.frames - 1).toNat, by omega⟩
  have first : grid.column i = i := Int.emod_eq_of_lt (by omega) (by omega)
  have reached := inside i (by omega)
  rw [tile_eq valid] at reached
  simp only [first] at reached
  rw [Grid.width, ← place, Int.add_mul, Int.one_mul]
  exact reached

theorem height_le (valid : grid.Valid) {height : Int}
    (inside : ∀ i < grid.frames, (grid.tile i).y + (grid.tile i).height ≤ height) : grid.height ≤ height := by
  have some := valid.frames
  have reached := inside (grid.frames - 1) (by omega)
  rw [tile_eq valid] at reached
  rw [Grid.height, rows_eq valid, Int.add_mul, Int.one_mul]
  exact reached

end Grid

theorem build_of_layout [Writer] {options : Options} {frames : List Text} {grid : Grid}
    (laid : layout options frames = .ok grid) :
    build options frames =
      if [grid.columns, grid.width, grid.height].all Text.isWritable then
        match Writer.write grid.width grid.height (pictures grid frames) with
        | some sheet => .ok sheet
        | none => .error .refused
      else .error .unwritable := by
  rw [build, laid, ok_bind, Grid.isWritable]
  cases [grid.columns, grid.width, grid.height].all Text.isWritable with
  | false => rfl
  | true => cases Writer.write grid.width grid.height (pictures grid frames) <;> rfl

end Flipbook.Sheet
