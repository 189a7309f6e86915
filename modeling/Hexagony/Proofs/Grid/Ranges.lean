import Hexagony.Proofs.Grid.Numbering

namespace Hexagony

-- The geometry once more in words of 64 bits: a value outside of its word, or a read outside of the
-- table of the rows, leaves nothing.
namespace Checked

-- The least word is the only one whose absolute value is none.
def signed? (value : Int) : Option Int :=
  if value.natAbs < Nat.pow 2 63 ∨ value = Int64.minValue.toInt then some value else none

def unsigned? (value : Int) : Option Nat := value.toNat?.filter (· < UInt64.size)

def cellCount? (size : Nat) : Option Nat := do
  let triple ← unsigned? (3 * size)
  let product ← unsigned? (triple * (size - 1 : Nat))
  unsigned? (product + 1)

def rowCount? (size : Nat) : Option Nat := do
  let diameter ← unsigned? (2 * size)
  unsigned? (diameter - 1)

def rowLength? (size row : Nat) : Option Nat := do
  let longest ← rowCount? size
  let side ← signed? size
  let middle ← signed? (side - 1)
  let place ← signed? row
  let distance ← signed? (middle - place)
  unsigned? (longest - distance.natAbs)

def pushRow? (size : Nat) (starts : Array Nat × Nat) (row : Nat) : Option (Array Nat × Nat) := do
  let length ← rowLength? size row
  let next ← unsigned? (starts.2 + length)
  return (starts.1.push starts.2, next)

def rowOffsets? (size : Nat) : Option (Array Nat) := do
  let rows ← rowCount? size
  let _ ← unsigned? (rows + 1)
  let starts ← (List.range rows).foldlM (pushRow? size) (#[], 0)
  return starts.1.push starts.2

-- The second and the third coordinate are looked at only if those before them are small enough.
def contains? (size : Nat) (p : Point) : Option Bool := do
  let side ← signed? size
  let q ← signed? p.q.natAbs
  if q < side then
    let r ← signed? p.r.natAbs
    if r < side then
      let west ← signed? (-p.q)
      let y ← signed? (west - p.r)
      let distance ← signed? y.natAbs
      return distance < side
    else return false
  else return false

def placeOf? (size : Nat) (p : Point) : Option (Nat × Nat) := do
  let side ← signed? size
  let below ← signed? (p.r + side)
  let row ← signed? (below - 1)
  let last ← signed? (side - 1)
  let column ← signed? (p.q + min row last)
  return (← unsigned? row, ← unsigned? column)

def indexOf? (grid : Grid) (p : Point) : Option (Option Nat) := do
  if ← contains? grid.size p then
    let (row, column) ← placeOf? grid.size p
    let start ← grid.rowOffsets[row]?
    let index ← unsigned? (start + column)
    return some index
  else return none

def pointAt? (size row column : Nat) : Option Point := do
  let side ← signed? size
  let row ← signed? row
  let column ← signed? column
  let last ← signed? (side - 1)
  let q ← signed? (column - min row last)
  let above ← signed? (row - side)
  let r ← signed? (above + 1)
  return ⟨q, r⟩

def pointOf? (grid : Grid) (index : Nat) : Option (Option Point) := do
  if index < grid.cells.size then
    let row ← unsigned? (Shape.partitionPoint (· ≤ index) grid.rowOffsets - 1)
    let start ← grid.rowOffsets[row]?
    let column ← unsigned? (index - start)
    let point ← pointAt? grid.size row column
    return some point
  else return none

theorem signed?_eq {value : Int} (small : value.natAbs < 9223372036854775808) :
    signed? value = some value :=
  if_pos (.inl small)

theorem wordSize_eq : UInt64.size = 18446744073709551616 := rfl

theorem unsigned?_eq {value : Int} (word : Nat) (same : value = word)
    (small : word < 18446744073709551616) : unsigned? value = some word := by
  have natural : value.toNat? = some word := by
    rw [same]
    rfl
  rw [unsigned?, natural]
  exact Option.filter_some_pos (decide_eq_true small)

section Sides
variable {size row : Nat}

theorem side_lt (addressable : Shape.cellCount size < UInt64.size) : size < 4294967296 := by
  by_contra large
  have sides : 3 * 4294967296 ≤ 3 * size := by omega
  have products := Nat.mul_le_mul sides (by omega : 4294967295 ≤ size - 1)
  rw [Shape.cellCount, wordSize_eq] at addressable
  omega

theorem cellCount?_eq (addressable : Shape.cellCount size < UInt64.size) :
    cellCount? size = some (Shape.cellCount size) := by
  have side := side_lt addressable
  have limit := wordSize_eq
  have counted : Shape.cellCount size = 3 * size * (size - 1) + 1 := rfl
  have triple : unsigned? (3 * size) = some (3 * size) := unsigned?_eq _ (by omega) (by omega)
  have product : unsigned? ((3 * size : Nat) * (size - 1 : Nat)) = some (3 * size * (size - 1)) :=
    unsigned?_eq _ (Nat.cast_mul _ _).symm (by omega)
  have sum : unsigned? ((3 * size * (size - 1) : Nat) + 1) = some (Shape.cellCount size) :=
    unsigned?_eq _ (Nat.cast_succ _).symm addressable
  simp only [cellCount?, triple, Option.bind_eq_bind, Option.bind_some, product, sum]

theorem rowCount?_eq (positive : 0 < size) (small : size < 4294967296) :
    rowCount? size = some (Shape.rowCount size) := by
  have rows : Shape.rowCount size = 2 * size - 1 := rfl
  have diameter : unsigned? (2 * size) = some (2 * size) := unsigned?_eq _ (by omega) (by omega)
  simp only [rowCount?, diameter, Option.bind_eq_bind, Option.bind_some]
  exact unsigned?_eq _ (by omega) (by omega)

theorem rowLength?_eq (small : size < 4294967296) (inside : row < Shape.rowCount size) :
    rowLength? size row = some (Shape.rowLength size row) := by
  have length := Shape.rowLength_exact inside
  have rows : Shape.rowCount size = 2 * size - 1 := rfl
  have longest := rowCount?_eq (by omega : 0 < size) small
  simp (disch := omega) only [rowLength?, longest, signed?_eq, Option.bind_eq_bind,
    Option.bind_some]
  exact unsigned?_eq _ (by omega) (by omega)

theorem pushRow?_eq {starts : Array Nat × Nat} (small : size < 4294967296)
    (inside : row < Shape.rowCount size)
    (fits : starts.2 + Shape.rowLength size row < UInt64.size) :
    pushRow? size starts row = some (Shape.pushRow size starts row) := by
  have next : unsigned? (starts.2 + Shape.rowLength size row) =
      some (starts.2 + Shape.rowLength size row) :=
    unsigned?_eq _ (Nat.cast_add _ _).symm fits
  simp only [pushRow?, rowLength?_eq small inside, Option.bind_eq_bind, Option.bind_some, next]
  rfl

-- The loop over the rows stays in its words, because its sum never passes the number of cells.
theorem rowStarts?_eq {rows : Nat} (addressable : Shape.cellCount size < UInt64.size)
    (inside : rows ≤ Shape.rowCount size) :
    (List.range rows).foldlM (pushRow? size) (#[], 0) = some (Shape.rowStarts size rows) := by
  induction rows with
  | zero => rfl
  | succ rows ih =>
    have fits : (Shape.rowStarts size rows).2 + Shape.rowLength size rows < UInt64.size := by
      rw [Shape.rowStarts_eq (by omega)]
      exact Nat.lt_of_le_of_lt (Shape.rowEnd_le inside) addressable
    rw [List.range_succ, List.foldlM_append, ih (by omega), Option.bind_eq_bind, Option.bind_some,
      List.foldlM_cons, pushRow?_eq (side_lt addressable) inside fits]
    simp [Shape.rowStarts, List.range_succ]

theorem rowOffsets?_eq (positive : 0 < size) (addressable : Shape.cellCount size < UInt64.size) :
    rowOffsets? size = some (Shape.rowOffsets size) := by
  have small := side_lt addressable
  have rows : Shape.rowCount size = 2 * size - 1 := rfl
  have entries : unsigned? (Shape.rowCount size + 1) = some (Shape.rowCount size + 1) :=
    unsigned?_eq _ (by omega) (by omega)
  simp only [rowOffsets?, rowCount?_eq positive small, entries, Option.bind_eq_bind,
    Option.bind_some, rowStarts?_eq addressable (Nat.le_refl _)]
  rfl

end Sides
end Checked

-- A point with two coordinates that are signed words, and so are their absolute values.
structure Point.Bounded (p : Point) : Prop where
  q_lt : p.q.natAbs < Nat.pow 2 63
  r_lt : p.r.natAbs < Nat.pow 2 63

namespace Checked
variable {size index : Nat} {p : Point} {grid : Grid}

theorem contains?_eq (small : size < 4294967296) (bounded : p.Bounded) :
    contains? size p = some (Shape.contains size p) := by
  have boundQ : p.q.natAbs < 9223372036854775808 := bounded.q_lt
  have boundR : p.r.natAbs < 9223372036854775808 := bounded.r_lt
  unfold contains? Shape.contains Point.y
  by_cases q : p.q.natAbs < size
  · by_cases r : p.r.natAbs < size
    · simp (disch := omega) only [signed?_eq, Option.bind_eq_bind, Option.bind_some, Int.ofNat_lt, q,
        r, if_true, decide_true, Bool.true_and, Option.pure_def]
    · simp (disch := omega) only [signed?_eq, Option.bind_eq_bind, Option.bind_some, Int.ofNat_lt, q,
        r, if_true, if_false, decide_false, Bool.and_false, Bool.false_and, Option.pure_def]
  · simp (disch := omega) only [signed?_eq, Option.bind_eq_bind, Option.bind_some, Int.ofNat_lt, q,
      if_false, decide_false, Bool.false_and, Option.pure_def]

theorem placeOf?_eq {row column : Nat} (small : size < 4294967296)
    (placed : Shape.Placed size p row column) : placeOf? size p = some (row, column) := by
  obtain ⟨rowEq, columnEq, rowLt, columnLt⟩ := placed
  rw [Shape.rowCount] at rowLt
  rw [Shape.rowLength] at columnLt
  have rowWord : unsigned? (p.r + size - 1) = some row := unsigned?_eq _ rowEq.symm (by omega)
  have columnWord : unsigned? (p.q + min (p.r + size - 1) (size - 1)) = some column :=
    unsigned?_eq _ (by rw [← rowEq, columnEq]) (by omega)
  simp (disch := omega) only [placeOf?, signed?_eq, Option.bind_eq_bind, Option.bind_some, rowWord,
    columnWord]
  rfl

theorem indexOf?_eq (addressable : grid.cells.size < UInt64.size) (bounded : p.Bounded) :
    indexOf? grid p = some (grid.indexOf? p) := by
  have small := side_lt (grid.size_cells ▸ addressable)
  unfold indexOf?
  rw [contains?_eq small bounded, Option.bind_eq_bind, Option.bind_some]
  by_cases inside : Shape.contains grid.size p = true
  · obtain ⟨index, found⟩ := Grid.indexOf?_isSome inside
    obtain ⟨row, column, placed, numbered⟩ := Grid.indexOf?_iff.mp found
    have start := Grid.getElem?_rowOffsets placed.row_lt.le
    have word : unsigned? (Shape.rowStart grid.size row + column) = some index :=
      unsigned?_eq _ (by omega) (Nat.lt_trans (Grid.indexOf?_lt found) addressable)
    simp only [inside, if_true, placeOf?_eq small placed, start, word, found, Option.bind_eq_bind,
      Option.bind_some]
    rfl
  · rw [Grid.indexOf?_outside (Bool.eq_false_iff.mpr inside), if_neg inside]
    rfl

theorem pointAt?_eq {row column : Nat} (small : size < 4294967296)
    (columnLt : column < Shape.rowLength size row) :
    pointAt? size row column = some (Shape.pointAt size row column) := by
  rw [Shape.rowLength] at columnLt
  simp (disch := omega) only [pointAt?, signed?_eq, Option.bind_eq_bind, Option.bind_some]
  have shift : min (row : Int) (size - 1) = Shape.rowShift size row := by
    unfold Shape.rowShift
    omega
  rw [shift]
  rfl

theorem pointOf?_eq (addressable : grid.cells.size < UInt64.size) (index : Nat) :
    pointOf? grid index = some (grid.pointOf? index) := by
  have small := side_lt (grid.size_cells ▸ addressable)
  unfold pointOf?
  by_cases inside : index < grid.cells.size
  · obtain ⟨row, column, found⟩ := Grid.exists_found inside
    have numbered := found.index_eq
    have start := Grid.getElem?_rowOffsets found.row_lt.le
    have rows : Shape.rowCount grid.size = 2 * grid.size - 1 := rfl
    have numeral : index < 18446744073709551616 := Nat.lt_trans inside addressable
    have rowWord : unsigned? ((row + 1 : Nat) - 1) = some row :=
      unsigned?_eq _ (by omega) (Nat.lt_trans found.row_lt (by omega))
    have columnWord : unsigned? (index - Shape.rowStart grid.size row) = some column :=
      unsigned?_eq _ (by omega) (by omega)
    simp only [inside, if_true, found.partition, rowWord, start, columnWord,
      pointAt?_eq small found.column_lt, Option.bind_eq_bind, Option.bind_some,
      found.pointOf?]
    rfl
  · simp [inside, Grid.pointOf?]

end Checked

namespace Grid
variable {grid : Grid}

theorem bounded_of_contains {p : Point} (addressable : grid.cells.size < UInt64.size)
    (inside : grid.contains p = true) : p.Bounded := by
  have small := Checked.side_lt (grid.size_cells ▸ addressable)
  have limit : Nat.pow 2 63 = 9223372036854775808 := rfl
  obtain ⟨boundQ, boundR, _⟩ := Shape.contains_iff.mp inside
  exact ⟨by omega, by omega⟩

structure RowMajor (grid : Grid) : Prop where
  count : grid.cells.size = 3 * grid.size * (grid.size - 1) + 1
  starts : ∀ row ≤ Shape.rowCount grid.size, grid.rowOffsets[row]? =
    some (∑ above ∈ Finset.range row, Shape.rowLength grid.size above)
  full : grid.rowOffsets.toList.getLast? = some grid.cells.size
  inverse : ∀ index p, p.Bounded → (grid.pointOf? index = some p ↔ grid.indexOf? p = some index)
  points : ∀ p, p.Bounded → (grid.indexOf? p).isSome = grid.contains p
  indices : ∀ index, (grid.pointOf? index).isSome = true ↔ index < grid.cells.size
  listed : grid.points.map some = (List.range grid.cells.size).map grid.pointOf?
  ascending : ∀ p other index later, p.Bounded → other.Bounded →
    grid.indexOf? p = some index → grid.indexOf? other = some later →
      (index < later ↔ p.r < other.r ∨ (p.r = other.r ∧ p.q < other.q))

theorem rowMajor (grid : Grid) : RowMajor grid where
  count := grid.size_cells
  starts := by
    intro row inside
    rw [getElem?_rowOffsets inside, Shape.sum_rowLength inside]
  full := by
    rw [grid.rowOffsets_eq, grid.cells_size, Shape.rowOffsets, Array.toList_push,
      List.getLast?_concat]
    rfl
  inverse := fun _ _ _ => pointOf?_iff.trans indexOf?_iff.symm
  points := fun p _ => isSome_indexOf? grid p
  indices := isSome_pointOf? grid
  listed := by
    rw [points, List.map_filterMap_some_eq_filter_map_isSome, List.filter_eq_self]
    intro numbered member
    obtain ⟨index, below, rfl⟩ := List.mem_map.mp member
    exact (isSome_pointOf? grid index).mpr (List.mem_range.mp below)
  ascending := fun _ _ _ _ _ _ found follows =>
    Shape.numbers_lt_iff (indexOf?_iff.mp found) (indexOf?_iff.mp follows)

structure InRange (grid : Grid) : Prop where
  cellCount : Checked.cellCount? grid.size = some grid.cells.size
  rowOffsets : Checked.rowOffsets? grid.size = some grid.rowOffsets
  contains : ∀ p, p.Bounded → Checked.contains? grid.size p = some (grid.contains p)
  indexOf : ∀ p, p.Bounded → Checked.indexOf? grid p = some (grid.indexOf? p)
  pointOf : ∀ index, Checked.pointOf? grid index = some (grid.pointOf? index)
  bounded : ∀ p, grid.contains p = true → p.Bounded

theorem inRange (addressable : grid.cells.size < UInt64.size) : InRange grid where
  cellCount := by
    rw [grid.size_cells] at addressable ⊢
    exact Checked.cellCount?_eq addressable
  rowOffsets := by
    rw [grid.rowOffsets_eq]
    exact Checked.rowOffsets?_eq grid.size_pos (grid.size_cells ▸ addressable)
  contains := fun _ bounded =>
    Checked.contains?_eq (Checked.side_lt (grid.size_cells ▸ addressable)) bounded
  indexOf := fun _ bounded => Checked.indexOf?_eq addressable bounded
  pointOf := Checked.pointOf?_eq addressable
  bounded := fun _ inside => bounded_of_contains addressable inside

-- There is a grid of every size from one on, and every grid has its cells numbered row by row:
-- numbers below the cell count and points of the hexagon belong to each other one by one. If the
-- cells can be counted in a word, then words are enough for all of the numbering.
theorem numbering_bijective :
    (∀ size, 0 < size → (blank size).size = size ∧
      (blank size).cells.size = 3 * size * (size - 1) + 1) ∧
    ∀ grid : Grid, RowMajor grid ∧ (grid.cells.size < UInt64.size → InRange grid) := by
  refine ⟨?_, fun grid => ⟨rowMajor grid, inRange⟩⟩
  intro size positive
  have sized := size_blank positive
  refine ⟨sized, ?_⟩
  rw [(rowMajor (blank size)).count, sized]

-- The end of one row and the start of the next, and what lies just outside.
theorem numbering_bijective_rows :
    let grid := blank 3
    (grid.size = 3 ∧ grid.cells.size = 19) ∧
      grid.indexOf? ⟨2, -1⟩ = some 6 ∧ grid.pointOf? 6 = some ⟨2, -1⟩ ∧
      grid.indexOf? ⟨-2, 0⟩ = some 7 ∧ Checked.pointOf? grid 7 = some (some ⟨-2, 0⟩) ∧
      ((6 : Nat) < 7 ↔ (-1 : Int) < 0 ∨ ((-1 : Int) = 0 ∧ (2 : Int) < -2)) ∧
      (grid.pointOf? 19).isSome = false ∧ Checked.indexOf? grid ⟨2, 1⟩ = some none ∧
      Checked.contains? 3 ⟨-9223372036854775807, 0⟩ = some false := by
  intro grid
  obtain ⟨sizes, numbered⟩ := numbering_bijective
  obtain ⟨layout, words⟩ := numbered grid
  have ranges := words (by decide)
  have upper : grid.indexOf? ⟨2, -1⟩ = some 6 := by decide
  have lower : grid.indexOf? ⟨-2, 0⟩ = some 7 := by decide
  have first : Point.Bounded ⟨2, -1⟩ := ranges.bounded _ (by decide)
  have next : Point.Bounded ⟨-2, 0⟩ := ranges.bounded _ (by decide)
  refine ⟨sizes 3 (by decide), upper, (layout.inverse 6 _ first).mpr upper, lower, ?_,
    layout.ascending _ _ _ _ first next upper lower, ?_, ranges.indexOf ⟨2, 1⟩ ?_,
    ranges.contains ⟨-9223372036854775807, 0⟩ ?_⟩
  · rw [ranges.pointOf, (layout.inverse 7 _ next).mpr lower]
  · exact Bool.eq_false_iff.mpr fun found => absurd ((layout.indices 19).mp found) (by decide)
  · exact ⟨by decide, by decide⟩
  · exact ⟨by decide, by decide⟩

end Grid
end Hexagony
