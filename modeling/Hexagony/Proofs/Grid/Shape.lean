import Mathlib.Algebra.BigOperators.Intervals
import Mathlib.Algebra.Order.BigOperators.Group.Finset
import Mathlib.Tactic.Ring
import Hexagony.Grid.Basic

namespace Hexagony

namespace Shape

-- Cells in the first rows of the growing half, which are those of the last rows of the other half.
def halfStart (size row : Nat) : Nat := row * size + row * (row - 1) / 2

theorem halfStart_succ (size row : Nat) :
    halfStart size (row + 1) = halfStart size row + (size + row) := by
  have triangle : (row + 1) * (row + 1 - 1) / 2 = row * (row - 1) / 2 + row :=
    Nat.triangle_succ row
  unfold halfStart
  rw [triangle, Nat.add_mul]
  omega

theorem halfStart_halves (size : Nat) :
    halfStart (size + 1) (size + 1) + halfStart (size + 1) size = cellCount (size + 1) := by
  have small := Nat.triangle_succ size
  have even : 2 ∣ size * (size - 1) := (Nat.even_mul_pred_self size).two_dvd
  obtain ⟨half, doubled⟩ := even
  have halved : size * (size - 1) / 2 = half := by omega
  have square : size * size = 2 * half + size := by
    cases size with
    | zero => simpa using doubled
    | succ n =>
      simp only [Nat.add_sub_cancel] at doubled
      rw [← doubled]
      ring
  unfold halfStart cellCount
  rw [small, halved]
  simp only [Nat.add_sub_cancel]
  have left : (size + 1) * (size + 1) = size * size + 2 * size + 1 := by ring
  have middle : size * (size + 1) = size * size + size := by ring
  have right : 3 * (size + 1) * size = 3 * (size * size) + 3 * size := by ring
  rw [left, middle, right]
  omega

def rowStart (size row : Nat) : Nat :=
  if row ≤ size then halfStart size row
  else cellCount size - halfStart size (2 * size - 1 - row)

theorem rowStart_growing {size row : Nat} (growing : row ≤ size) :
    rowStart size row = halfStart size row := by
  simp [rowStart, growing]

theorem rowStart_shrinking {size row : Nat} (shrinking : size ≤ row) (inside : row < 2 * size) :
    rowStart size row + halfStart size (2 * size - 1 - row) = cellCount size := by
  obtain ⟨small, rfl⟩ : ∃ small, size = small + 1 := ⟨size - 1, by omega⟩
  have halves := halfStart_halves small
  rcases Nat.eq_or_lt_of_le shrinking with equal | later
  · have rest : 2 * (small + 1) - 1 - row = small := by omega
    rw [rowStart_growing equal.symm.le, rest, ← equal]
    exact halves
  · have monotone : halfStart (small + 1) (2 * (small + 1) - 1 - row) ≤
        halfStart (small + 1) small := by
      unfold halfStart
      have fewer : 2 * (small + 1) - 1 - row ≤ small := by omega
      gcongr
    have unfolded : rowStart (small + 1) row =
        cellCount (small + 1) - halfStart (small + 1) (2 * (small + 1) - 1 - row) := by
      simp [rowStart, Nat.not_le.mpr later]
    omega

theorem rowStart_succ {size row : Nat} (inside : row < rowCount size) :
    rowStart size (row + 1) = rowStart size row + rowLength size row := by
  unfold rowCount at inside
  by_cases growing : row < size
  · rw [rowStart_growing growing, rowStart_growing growing.le, halfStart_succ]
    unfold rowLength
    omega
  · have here : rowStart size row + halfStart size (2 * size - 1 - row) = cellCount size :=
      rowStart_shrinking (by omega) (by omega)
    have next : rowStart size (row + 1) + halfStart size (2 * size - 1 - (row + 1)) =
        cellCount size := rowStart_shrinking (by omega) (by omega)
    have fewer : 2 * size - 1 - row = 2 * size - 1 - (row + 1) + 1 := by omega
    rw [fewer, halfStart_succ] at here
    unfold rowLength
    omega

theorem rowStart_rowCount {size : Nat} (positive : 0 < size) :
    rowStart size (rowCount size) = cellCount size := by
  have whole : rowStart size (rowCount size) + halfStart size (2 * size - 1 - rowCount size) =
      cellCount size := rowStart_shrinking (by unfold rowCount; omega) (by unfold rowCount; omega)
  have none : 2 * size - 1 - rowCount size = 0 := by unfold rowCount; omega
  simpa [none, halfStart] using whole

theorem rowStart_add_rowLength_le {size row later : Nat} (before : row < later)
    (inside : later ≤ rowCount size) :
    rowStart size row + rowLength size row ≤ rowStart size later := by
  induction later with
  | zero => omega
  | succ last ih =>
    rw [rowStart_succ inside]
    rcases Nat.lt_succ_iff_lt_or_eq.mp before with earlier | rfl
    · have prior := ih earlier (by omega)
      omega
    · exact Nat.le_refl _

theorem rowEnd_le {size row : Nat} (inside : row < rowCount size) :
    rowStart size row + rowLength size row ≤ cellCount size := by
  have positive : 0 < size := by unfold rowCount at inside; omega
  rw [← rowStart_rowCount positive]
  exact rowStart_add_rowLength_le inside (Nat.le_refl _)

theorem rowStart_zero (size : Nat) : rowStart size 0 = 0 := by
  simp [rowStart, halfStart]

theorem rowStarts_eq {size rows : Nat} (inside : rows ≤ rowCount size) :
    rowStarts size rows = (((List.range rows).map (rowStart size)).toArray, rowStart size rows) := by
  induction rows with
  | zero => simp [rowStarts, rowStart_zero]
  | succ rows ih =>
    have earlier : (List.range rows).foldl (pushRow size) (#[], 0) = _ := ih (by omega)
    unfold rowStarts
    rw [List.range_succ, List.foldl_append, earlier]
    simp [pushRow, rowStart_succ inside]

theorem rowOffsets_eq (size : Nat) :
    rowOffsets size = ((List.range (rowCount size + 1)).map (rowStart size)).toArray := by
  simp [rowOffsets, rowStarts_eq, List.range_succ]

theorem total_eq {size : Nat} (positive : 0 < size) : total size = cellCount size := by
  rw [total, rowStarts_eq (Nat.le_refl _), rowStart_rowCount positive]

theorem getElem?_rowOffsets {size row : Nat} (inside : row ≤ rowCount size) :
    (rowOffsets size)[row]? = some (rowStart size row) := by
  have bound : row < rowCount size + 1 := by omega
  simp [rowOffsets_eq, bound]

theorem contains_iff {size : Nat} {p : Point} :
    contains size p = true ↔
      p.q.natAbs < size ∧ p.r.natAbs < size ∧ (p.q + p.r).natAbs < size := by
  have opposite : p.y.natAbs = (p.q + p.r).natAbs := by unfold Point.y; omega
  simp [contains, opposite, and_assoc]

theorem rowOf_lt {size : Nat} {p : Point} (inside : contains size p = true) :
    rowOf size p < rowCount size := by
  obtain ⟨_, boundR, _⟩ := contains_iff.mp inside
  unfold rowOf rowCount
  omega

theorem columnOf_lt {size : Nat} {p : Point} (inside : contains size p = true) :
    columnOf size p < rowLength size (rowOf size p) := by
  obtain ⟨boundQ, boundR, boundY⟩ := contains_iff.mp inside
  unfold columnOf rowLength rowShift rowOf
  omega

theorem eq_of_rowOf_columnOf {size : Nat} {p other : Point} (inside : contains size p = true)
    (within : contains size other = true) (sameRow : rowOf size p = rowOf size other)
    (sameColumn : columnOf size p = columnOf size other) : p = other := by
  obtain ⟨boundQ, boundR, boundY⟩ := contains_iff.mp inside
  obtain ⟨limitQ, limitR, limitY⟩ := contains_iff.mp within
  have sameR : p.r = other.r := by
    unfold rowOf at sameRow
    omega
  have sameQ : p.q = other.q := by
    unfold columnOf at sameColumn
    rw [← sameRow] at sameColumn
    unfold rowShift rowOf at sameColumn
    omega
  exact Point.ext sameQ sameR

theorem rowStart_add_columnOf_lt {size : Nat} {p : Point} (inside : contains size p = true) :
    rowStart size (rowOf size p) + columnOf size p < cellCount size := by
  have column := columnOf_lt inside
  have fits := rowEnd_le (rowOf_lt inside)
  omega

-- Rows do not overlap: two of them would be apart by at least the length of the upper one.
theorem row_unique {size row other column place : Nat} (inside : row < rowCount size)
    (within : other < rowCount size) (fits : column < rowLength size row)
    (suits : place < rowLength size other)
    (same : rowStart size row + column = rowStart size other + place) :
    row = other ∧ column = place := by
  rcases Nat.lt_trichotomy row other with above | rfl | below
  · have apart := rowStart_add_rowLength_le above within.le
    omega
  · exact ⟨rfl, Nat.add_left_cancel same⟩
  · have apart := rowStart_add_rowLength_le below inside.le
    omega

end Shape

namespace Grid
variable {grid : Grid} {index : Nat} {p other : Point}

theorem size_cells (grid : Grid) : grid.cells.size = Shape.cellCount grid.size := by
  rw [grid.cells_size, Shape.total_eq grid.size_pos]

theorem getElem?_rowOffsets {row : Nat} (inside : row ≤ Shape.rowCount grid.size) :
    grid.rowOffsets[row]? = some (Shape.rowStart grid.size row) := by
  rw [grid.rowOffsets_eq, Shape.getElem?_rowOffsets inside]

theorem rowStart_eq {row : Nat} (inside : row ≤ Shape.rowCount grid.size) :
    grid.rowStart row = Shape.rowStart grid.size row := by
  rw [rowStart, Array.getD_eq_getD_getElem?, getElem?_rowOffsets inside, Option.getD_some]

theorem indexOf?_eq_some :
    grid.indexOf? p = some index ↔
      grid.contains p = true ∧
        Shape.rowStart grid.size (Shape.rowOf grid.size p) + Shape.columnOf grid.size p = index := by
  unfold indexOf?
  split
  · rename_i inside
    rw [rowStart_eq (Shape.rowOf_lt inside).le]
    simp [inside]
  · simp_all

theorem indexOf?_isSome (inside : grid.contains p = true) : ∃ index, grid.indexOf? p = some index :=
  ⟨_, indexOf?_eq_some.mpr ⟨inside, rfl⟩⟩

theorem indexOf?_outside (outside : grid.contains p = false) : grid.indexOf? p = none := by
  simp [indexOf?, outside]

theorem indexOf?_lt (found : grid.indexOf? p = some index) : index < grid.cells.size := by
  obtain ⟨inside, rfl⟩ := indexOf?_eq_some.mp found
  rw [size_cells]
  exact Shape.rowStart_add_columnOf_lt inside

theorem indexOf?_injective (found : grid.indexOf? p = some index)
    (same : grid.indexOf? other = some index) : p = other := by
  obtain ⟨inside, numbered⟩ := indexOf?_eq_some.mp found
  obtain ⟨within, renumbered⟩ := indexOf?_eq_some.mp same
  obtain ⟨sameRow, sameColumn⟩ := Shape.row_unique (Shape.rowOf_lt inside) (Shape.rowOf_lt within)
    (Shape.columnOf_lt inside) (Shape.columnOf_lt within) (numbered.trans renumbered.symm)
  exact Shape.eq_of_rowOf_columnOf inside within sameRow sameColumn

theorem indexOf?_congr {left right : Grid} (sizes : left.size = right.size) (p : Point) :
    left.indexOf? p = right.indexOf? p := by
  have tables : left.rowOffsets = right.rowOffsets := by
    rw [left.rowOffsets_eq, right.rowOffsets_eq, sizes]
  unfold indexOf? contains rowStart
  rw [sizes, tables]

end Grid
end Hexagony
