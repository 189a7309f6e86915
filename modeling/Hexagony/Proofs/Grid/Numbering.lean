import Hexagony.Proofs.Grid.Shape

namespace Hexagony

namespace Shape
variable {size row column index : Nat} {p : Point}

theorem sum_rowLength (inside : row ≤ rowCount size) :
    ∑ above ∈ Finset.range row, rowLength size above = rowStart size row := by
  induction row with
  | zero => exact (rowStart_zero size).symm
  | succ row ih => rw [Finset.sum_range_succ, ih (by omega), rowStart_succ inside]

theorem rowLength_exact (inside : row < rowCount size) :
    (rowLength size row : Int) = 2 * size - 1 - ((size : Int) - 1 - row).natAbs := by
  unfold rowCount at inside
  unfold rowLength
  omega

-- The row and the column of a point of the hexagon, as whole numbers that fall neither below zero
-- nor past the last row and the end of the row.
structure Placed (size : Nat) (p : Point) (row column : Nat) : Prop where
  row_eq : (row : Int) = p.r + size - 1
  column_eq : (column : Int) = p.q + min (row : Int) (size - 1)
  row_lt : row < rowCount size
  column_lt : column < rowLength size row

theorem placed_iff_contains :
    Placed size p row column ↔
      contains size p = true ∧ rowOf size p = row ∧ columnOf size p = column := by
  constructor
  · rintro ⟨rowEq, columnEq, rowLt, columnLt⟩
    unfold rowCount at rowLt
    unfold rowLength at columnLt
    have sameRow : rowOf size p = row := by
      unfold rowOf
      omega
    refine ⟨contains_iff.mpr ?_, sameRow, ?_⟩
    -- Above the middle row the ends of a row bound `q + r` and `q`, below it `q` and `q + r`.
    · omega
    · unfold columnOf rowShift
      rw [sameRow]
      omega
  · rintro ⟨inside, rfl, rfl⟩
    obtain ⟨boundQ, boundR, boundY⟩ := contains_iff.mp inside
    refine ⟨?_, ?_, rowOf_lt inside, columnOf_lt inside⟩
    · unfold rowOf
      omega
    · unfold columnOf rowShift rowOf
      omega

theorem placed_iff_pointAt :
    Placed size p row column ↔
      row < rowCount size ∧ column < rowLength size row ∧ pointAt size row column = p := by
  constructor
  · rintro ⟨rowEq, columnEq, rowLt, columnLt⟩
    refine ⟨rowLt, columnLt, ?_⟩
    unfold rowCount at rowLt
    apply Point.ext
    · simp only [pointAt, rowShift]
      omega
    · simp only [pointAt]
      omega
  · rintro ⟨rowLt, columnLt, rfl⟩
    refine ⟨?_, ?_, rowLt, columnLt⟩
    · simp only [pointAt]
      omega
    · unfold rowCount at rowLt
      simp only [pointAt, rowShift]
      omega

def Numbers (size : Nat) (p : Point) (index : Nat) : Prop :=
  ∃ row column, Placed size p row column ∧ rowStart size row + column = index

theorem numbers_lt_iff {other : Point} {later : Nat} (numbers : Numbers size p index)
    (follows : Numbers size other later) :
    index < later ↔ p.r < other.r ∨ (p.r = other.r ∧ p.q < other.q) := by
  obtain ⟨row, column, placed, rfl⟩ := numbers
  obtain ⟨lower, place, lies, rfl⟩ := follows
  have rowEq := placed.row_eq
  have columnEq := placed.column_eq
  have lowerEq := lies.row_eq
  have placeEq := lies.column_eq
  have columnLt := placed.column_lt
  have placeLt := lies.column_lt
  rcases Nat.lt_trichotomy row lower with above | same | below
  · have apart := rowStart_add_rowLength_le above lies.row_lt.le
    exact iff_of_true (by omega) (.inl (by omega))
  · subst same
    omega
  · have apart := rowStart_add_rowLength_le below placed.row_lt.le
    exact iff_of_false (by omega) (by omega)

theorem exists_row {rows : Nat} (inside : rows ≤ rowCount size)
    (before : index < rowStart size rows) :
    ∃ row < rows, rowStart size row ≤ index ∧ index < rowStart size row + rowLength size row := by
  induction rows with
  | zero => simp [rowStart_zero] at before
  | succ last ih =>
    rw [rowStart_succ inside] at before
    by_cases earlier : index < rowStart size last
    · obtain ⟨row, above, bounds⟩ := ih (by omega) earlier
      exact ⟨row, by omega, bounds⟩
    · exact ⟨last, by omega, by omega, before⟩

-- The window closes on the first `count` entries if they are those with the property.
theorem partitionIn_eq {holds : Nat → Bool} {table : Array Nat} {low high count : Nat}
    (inside : high ≤ table.size) (above : low ≤ count) (below : count ≤ high)
    (leading : ∀ place entry, table[place]? = some entry → (holds entry = true ↔ place < count)) :
    partitionIn holds table low high inside = count := by
  fun_induction partitionIn holds table low high inside with
  | case1 low high inside window middle within held ih =>
    have before := (leading middle _ (Array.getElem?_eq_getElem within)).mp held
    exact ih (by omega) below
  | case2 low high inside window middle within failed ih =>
    have after := (leading middle _ (Array.getElem?_eq_getElem within)).not.mp failed
    exact ih above (by omega)
  | case3 low high inside closed => omega

theorem partitionPoint_rowOffsets (inside : row < rowCount size)
    (starts : rowStart size row ≤ index)
    (ends : index < rowStart size row + rowLength size row) :
    partitionPoint (· ≤ index) (rowOffsets size) = row + 1 := by
  have count : (rowOffsets size).size = rowCount size + 1 := by simp [rowOffsets_eq]
  refine partitionIn_eq _ (Nat.zero_le _) (by omega) ?_
  intro place entry found
  have within : place ≤ rowCount size := by
    have bound := (Array.getElem?_eq_some_iff.mp found).1
    omega
  rw [getElem?_rowOffsets within, Option.some_inj] at found
  rw [← found, decide_eq_true_eq]
  constructor
  · intro started
    by_contra beyond
    have apart := rowStart_add_rowLength_le (by omega : row < place) within
    omega
  · intro before
    rcases Nat.lt_succ_iff_lt_or_eq.mp before with earlier | rfl
    · have apart := rowStart_add_rowLength_le earlier inside.le
      omega
    · exact starts

end Shape

namespace Grid

variable {grid : Grid} {index : Nat} {p : Point}

theorem indexOf?_iff : grid.indexOf? p = some index ↔ Shape.Numbers grid.size p index := by
  rw [indexOf?_eq_some]
  constructor
  · rintro ⟨inside, numbered⟩
    exact ⟨_, _, Shape.placed_iff_contains.mpr ⟨inside, rfl, rfl⟩, numbered⟩
  · rintro ⟨row, column, placed, numbered⟩
    obtain ⟨inside, rfl, rfl⟩ := Shape.placed_iff_contains.mp placed
    exact ⟨inside, numbered⟩

theorem isSome_indexOf? (grid : Grid) (p : Point) : (grid.indexOf? p).isSome = grid.contains p := by
  unfold indexOf?
  split <;> simp_all

structure Found (grid : Grid) (index row column : Nat) : Prop where
  row_lt : row < Shape.rowCount grid.size
  column_lt : column < Shape.rowLength grid.size row
  index_eq : Shape.rowStart grid.size row + column = index
  -- The search stops one past the row.
  partition : Shape.partitionPoint (· ≤ index) grid.rowOffsets = row + 1

theorem exists_found (inside : index < grid.cells.size) :
    ∃ row column, grid.Found index row column := by
  rw [size_cells, ← Shape.rowStart_rowCount grid.size_pos] at inside
  obtain ⟨row, within, starts, ends⟩ := Shape.exists_row (Nat.le_refl _) inside
  refine ⟨row, index - Shape.rowStart grid.size row, within, by omega, by omega, ?_⟩
  rw [grid.rowOffsets_eq]
  exact Shape.partitionPoint_rowOffsets within starts ends

theorem Found.pointOf? {row column : Nat} (found : grid.Found index row column) :
    grid.pointOf? index = some (Shape.pointAt grid.size row column) := by
  have bound := Shape.rowEnd_le found.row_lt
  rw [← size_cells] at bound
  have numbered := found.index_eq
  have fits := found.column_lt
  have inside : index < grid.cells.size := by omega
  simp only [Grid.pointOf?, inside, if_true, found.partition, Nat.add_sub_cancel,
    rowStart_eq found.row_lt.le]
  rw [← numbered, Nat.add_sub_cancel_left]

theorem isSome_pointOf? (grid : Grid) (index : Nat) :
    (grid.pointOf? index).isSome = true ↔ index < grid.cells.size := by
  unfold pointOf?
  split <;> simp_all

theorem pointOf?_iff : grid.pointOf? index = some p ↔ Shape.Numbers grid.size p index := by
  by_cases inside : index < grid.cells.size
  · obtain ⟨row, column, found⟩ := exists_found inside
    rw [found.pointOf?, Option.some_inj]
    constructor
    · intro here
      exact ⟨row, column, Shape.placed_iff_pointAt.mpr ⟨found.row_lt, found.column_lt, here⟩,
        found.index_eq⟩
    · rintro ⟨other, place, placed, numbered⟩
      obtain ⟨within, suits, there⟩ := Shape.placed_iff_pointAt.mp placed
      obtain ⟨rfl, rfl⟩ := Shape.row_unique found.row_lt within found.column_lt suits
        (found.index_eq.trans numbered.symm)
      exact there
  · refine iff_of_false ?_ ?_
    · intro found
      exact inside ((isSome_pointOf? grid index).mp (Option.isSome_of_eq_some found))
    · intro numbers
      exact inside (indexOf?_lt (indexOf?_iff.mpr numbers))

theorem size_blank {size : Nat} (positive : 0 < size) : (blank size).size = size :=
  Nat.max_eq_left positive

end Grid
end Hexagony
