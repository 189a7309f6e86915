import Mathlib.Order.Bounds.Basic
import Hexagony.Grid.Basic
import Hexagony.Proofs.Grid.Shape

namespace Hexagony

namespace Shape
variable {size count : Nat}

theorem le_cellCount (size : Nat) : size ≤ cellCount size := by
  unfold cellCount
  cases size with
  | zero => exact Nat.zero_le _
  | succ size =>
    have grows : size ≤ 3 * (size + 1) * size := Nat.le_mul_of_pos_left size (by omega)
    rw [Nat.add_sub_cancel]
    omega

theorem cellCount_lt {smaller : Nat} (positive : 0 < smaller) (less : smaller < size) :
    cellCount smaller < cellCount size := by
  have products : 3 * smaller * (smaller - 1) < 3 * size * (size - 1) :=
    Nat.mul_lt_mul_of_lt_of_le (by omega) (by omega) (by omega)
  unfold cellCount
  omega

-- The search goes up by one, so it passes over no side that has room. It ends in time if the last
-- side it can come to has room.
theorem fitFrom_least (fuel : Nat) (enough : count ≤ cellCount (size + fuel)) :
    IsLeast {side | size ≤ side ∧ count ≤ cellCount side} (fitFrom count fuel size) := by
  induction fuel generalizing size with
  | zero => exact ⟨⟨Nat.le_refl _, enough⟩, fun _ room => room.1⟩
  | succ fuel ih =>
    rw [fitFrom]
    split
    · rename_i short
      rw [show size + (fuel + 1) = size + 1 + fuel by omega] at enough
      obtain ⟨⟨above, room⟩, least⟩ := ih enough
      refine ⟨⟨by omega, room⟩, ?_⟩
      rintro side ⟨beyond, holds⟩
      have further : size ≠ side := by
        rintro rfl
        omega
      exact least ⟨by omega, holds⟩
    · rename_i room
      exact ⟨⟨Nat.le_refl _, Nat.le_of_not_lt room⟩, fun _ holds => holds.1⟩

theorem fit_least (count : Nat) :
    IsLeast {side | 1 ≤ side ∧ count ≤ cellCount side} (fit count) := by
  apply fitFrom_least
  have room := le_cellCount (1 + count)
  omega

theorem fit_cellCount (positive : 0 < size) : fit (cellCount size) = size := by
  refine (fit_least (cellCount size)).unique ⟨⟨positive, Nat.le_refl _⟩, ?_⟩
  rintro side ⟨proper, holds⟩
  by_contra smaller
  exact absurd (cellCount_lt proper (Nat.lt_of_not_le smaller)) (Nat.not_lt.mpr holds)

end Shape

namespace Grid

theorem size_parse (text : String) : (parse text).size = Shape.fit (strip text).length :=
  Nat.max_eq_left (Shape.fit_least _).1.1

theorem cells_parse (text : String) :
    (parse text).cells.toList = strip text ++
      List.replicate (Shape.cellCount (parse text).size - (strip text).length) filler := by
  have room := (Shape.fit_least (strip text).length).1.2
  have whole := Nat.max_eq_left (Shape.fit_least (strip text).length).1.1
  rw [size_parse]
  rw [← Shape.total_eq (Shape.fit_least _).1.1] at room ⊢
  simp only [parse, refill, blank, whole, Array.size_replicate, Array.toList_replicate,
    List.take_of_length_le room, List.drop_replicate]

theorem ext {grid other : Grid} (sizes : grid.size = other.size) (cells : grid.cells = other.cells) :
    grid = other := by
  have tables : grid.rowOffsets = other.rowOffsets := by
    rw [grid.rowOffsets_eq, other.rowOffsets_eq, sizes]
  cases grid
  cases other
  simp_all

theorem flatten_rows_take (grid : Grid) {count : Nat} (within : count ≤ Shape.rowCount grid.size) :
    ((List.range count).map grid.row).flatten =
      grid.cells.toList.take (Shape.rowStart grid.size count) := by
  induction count with
  | zero => simp [Shape.rowStart_zero]
  | succ count ih =>
    have ahead := Shape.rowStart_succ within
    rw [List.range_succ, List.map_append, List.flatten_append, ih (by omega), List.map_singleton,
      List.flatten_singleton, row, rowStart_eq within, rowStart_eq (by omega), List.drop_take,
      ahead, Nat.add_sub_cancel_left, List.take_add]

theorem flatten_rows (grid : Grid) : grid.rows.flatten = grid.cells.toList := by
  rw [rows, flatten_rows_take grid (Nat.le_refl _), Shape.rowStart_rowCount grid.size_pos,
    ← grid.size_cells]
  exact List.take_length

section Layout
variable {keep : Char → Bool}

theorem filter_spread (dropped : keep ' ' = false) (line : List Char) :
    (spread line).filter keep = line.filter keep := by
  unfold spread
  induction line with
  | nil => rfl
  | cons char rest ih =>
    cases rest with
    | nil => rfl
    | cons next rest =>
      rw [List.intersperse_cons_cons, List.filter_cons, List.filter_cons_of_neg (by simp [dropped]),
        ih, ← List.filter_cons]

theorem filter_intercalate (dropped : keep '\n' = false) (lines : List (List Char)) :
    (['\n'].intercalate lines).filter keep = (lines.map (List.filter keep)).flatten := by
  induction lines with
  | nil => rfl
  | cons line rest ih =>
    cases rest with
    | nil => simp
    | cons next rest =>
      rw [List.intercalate_cons_cons, List.filter_append, List.filter_append,
        List.filter_cons_of_neg (by simp [dropped]), List.filter_nil, List.append_nil, ih]
      rfl

theorem filter_line (dropped : keep ' ' = false) (grid : Grid) (line : List Char) :
    (grid.indent line ++ spread line).filter keep = line.filter keep := by
  rw [List.filter_append, filter_spread dropped, indent, List.filter_replicate,
    if_neg (by simp [dropped]), List.nil_append]

theorem filter_text (spaces : keep ' ' = false) (breaks : keep '\n' = false) (grid : Grid) :
    grid.text.toList.filter keep = grid.cells.toList.filter keep := by
  rw [text, String.toList_ofList, filter_intercalate breaks, lines, List.map_map]
  have each : List.filter keep ∘ (fun line => grid.indent line ++ spread line) = List.filter keep :=
    funext (filter_line spaces grid)
  rw [each, ← List.filter_flatten, flatten_rows]

end Layout

theorem strip_clean (text : String) : ∀ char ∈ strip text, isIgnored char = false := by
  intro char member
  simpa using (List.mem_filter.mp member).2

theorem filter_clean {chars : List Char} (clean : ∀ char ∈ chars, isIgnored char = false) :
    (chars.filter fun char => !isIgnored char) = chars := by
  rw [List.filter_eq_self]
  intro char member
  rw [clean char member]
  rfl

theorem strip_text {grid : Grid} (clean : ∀ char ∈ grid.cells.toList, isIgnored char = false) :
    strip grid.text = grid.cells.toList := by
  rw [strip, filter_text (by decide) (by decide), filter_clean clean]

theorem parse_text {grid : Grid} (clean : ∀ char ∈ grid.cells.toList, isIgnored char = false) :
    parse grid.text = grid := by
  have kept := strip_text clean
  have full : grid.cells.toList.length = Shape.cellCount grid.size := grid.size_cells
  have sizes : (parse grid.text).size = grid.size := by
    rw [size_parse, kept, full, Shape.fit_cellCount grid.size_pos]
  refine ext sizes (Array.toList_inj.mp ?_)
  rw [cells_parse, sizes, kept, full, Nat.sub_self, List.replicate_zero, List.append_nil]

theorem parse_clean (text : String) :
    ∀ char ∈ (parse text).cells.toList, isIgnored char = false := by
  intro char member
  rw [cells_parse, List.mem_append] at member
  rcases member with given | filled
  · exact strip_clean text char given
  · rw [List.eq_of_mem_replicate filled]
    decide

-- The characters that take a cell fill the least hexagon with room for them, in order and then with
-- no-ops, and its drawing is another text of the same program.
theorem drawing_parses_back (text : String) :
    let chars := text.toList.filter fun char => char ∉ ignored
    let grid := parse text
    IsLeast {size | 1 ≤ size ∧ chars.length ≤ Shape.cellCount size} grid.size ∧
      grid.cells.toList =
        chars ++ List.replicate (Shape.cellCount grid.size - chars.length) '.' ∧
      parse grid.text = grid := by
  intro chars grid
  have stripped : chars = strip text := by
    simp [chars, strip, isIgnored]
  refine ⟨?_, ?_, parse_text (parse_clean text)⟩
  · rw [stripped, size_parse]
    exact Shape.fit_least _
  · rw [stripped]
    exact cells_parse text

example : (parse " a\tb\n\x60c").text = "  a b\n c . .\n  . ." := by decide

end Grid
end Hexagony
