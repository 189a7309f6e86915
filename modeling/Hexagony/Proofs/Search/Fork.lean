import Hexagony.Proofs.Grid.Drawing
import Hexagony.Proofs.Interpreter
import Hexagony.Search.Trial

namespace Hexagony

namespace Grid
variable {first second : List Char}

theorem parse_ofList {chars : List Char} (clean : ∀ char ∈ chars, isIgnored char = false) :
    parse (String.ofList chars) = (blank (Shape.fit chars.length)).refill chars := by
  have kept : strip (String.ofList chars) = chars := by
    rw [strip, String.toList_ofList, filter_clean clean]
  rw [parse, kept]

theorem size_refill (grid : Grid) (chars : List Char) : (grid.refill chars).size = grid.size := rfl

theorem indexOf?_refill (grid : Grid) (chars : List Char) (p : Point) :
    (grid.refill chars).indexOf? p = grid.indexOf? p := rfl

theorem refill_refill (grid : Grid) (same : first.length = second.length) :
    (grid.refill first).refill second = grid.refill second := by
  have rest : (first.take grid.cells.size ++ grid.cells.toList.drop first.length).drop
      second.length = grid.cells.toList.drop second.length := by
    have covered : (first.take grid.cells.size).drop second.length = [] :=
      List.drop_eq_nil_of_le (by rw [List.length_take]; omega)
    rw [List.drop_append, covered, List.nil_append, List.drop_drop, List.length_take, same]
    rcases Nat.le_total second.length grid.cells.size with fits | exceeds
    · rw [Nat.min_eq_right fits, Nat.sub_self, Nat.add_zero]
    · rw [List.drop_eq_nil_of_le (by rw [Array.length_toList]; omega),
        List.drop_eq_nil_of_le (by rw [Array.length_toList]; omega)]
  have full : (grid.refill first).cells.size = grid.cells.size := by
    rw [size_cells, size_cells, size_refill]
  unfold refill at full ⊢
  simp only [full, rest]

theorem get_refill_congr (grid : Grid) (same : first.length = second.length) {p : Point}
    (agrees : ∀ index, grid.indexOf? p = some index → first[index]? = second[index]?) :
    (grid.refill first).get p = (grid.refill second).get p := by
  rw [get, get, indexOf?_refill, indexOf?_refill]
  cases found : grid.indexOf? p with
  | none => rfl
  | some index =>
    have equal := agrees index found
    simp only [refill, Array.getD_eq_getD_getElem?, List.getElem?_toArray]
    rw [List.getElem?_append, List.getElem?_append, List.getElem?_take, List.getElem?_take,
      List.length_take, List.length_take, same, equal]

end Grid

namespace Search
variable {config : Config} {program : List Char}

def fresh (config : Config) (text : String) : Interpreter :=
  (Interpreter.ofSource text {}).setTarget (some config.target)

theorem baseStart_grid (config : Config) :
    (baseStart config).grid = (Grid.blank (Shape.fit config.cells.length)).refill config.cells :=
  Grid.parse_ofList (Grid.strip_clean config.template)

theorem fresh_eq (written : Grid.parse (String.ofList program) =
      (Grid.parse (String.ofList config.cells)).refill program) :
    (fresh config (String.ofList program)).setBudget (some config.prefixTicks) =
      (baseStart config).onGrid ((Grid.parse (String.ofList config.cells)).refill program) := by
  rw [fresh, baseStart, Interpreter.ofSource, Interpreter.ofSource, written]
  generalize Grid.parse (String.ofList config.cells) = grid
  rfl

theorem fork_base (sized : program.length = config.cells.length)
    (clean : ∀ char ∈ program, Grid.isIgnored char = false)
    (agrees : ∀ state ∈ Clocked.runPath (baseStart config),
      (state.fork program).opcode = state.opcode) :
    (base config).fork program =
      ((fresh config (String.ofList program)).setBudget (some config.prefixTicks)).run := by
  have grid : (baseStart config).grid = Grid.parse (String.ofList config.cells) := rfl
  have written : Grid.parse (String.ofList program) =
      (Grid.parse (String.ofList config.cells)).refill program := by
    rw [Grid.parse_ofList clean, ← grid, baseStart_grid, Grid.refill_refill _ sized.symm, sized]
  have alike : ∀ state ∈ Clocked.runPath (baseStart config),
      (state.onGrid ((Grid.parse (String.ofList config.cells)).refill program)).opcode =
        state.opcode := by
    intro state passed
    have same := agrees state passed
    rw [Interpreter.fork, Interpreter.path_grid passed, grid] at same
    exact same
  rw [fresh_eq written, Interpreter.run_onGrid (by rw [grid, Grid.size_refill]) alike, Interpreter.fork, base,
    Interpreter.run_grid, grid]
  rfl

end Search
end Hexagony
