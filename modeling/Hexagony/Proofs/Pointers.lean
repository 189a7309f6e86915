import Mathlib.Tactic.FinCases
import Hexagony.Proofs.Interpreter

namespace Hexagony

theorem InstructionPointer.corners_inside {size : Nat} (positive : 0 < size) (index : Fin 6) :
    Shape.contains size (corners size)[index].point = true := by
  rw [Shape.contains_iff]
  fin_cases index <;> simp [corners] <;> omega

theorem Grid.get_inside {grid : Grid} {point : Point} (inside : grid.contains point = true) :
    ∃ index, grid.indexOf? point = some index ∧ grid.cells[index]? = some (grid.get point) := by
  obtain ⟨index, here⟩ := indexOf?_isSome inside
  have bound := indexOf?_lt here
  refine ⟨index, here, ?_⟩
  rw [Grid.get, here]
  simp [bound]

namespace Interpreter
variable {state : Interpreter} {size : Nat}

inductive Reached (grid : Grid) : Interpreter → Prop where
  | start (input : Input) : Reached grid (ofGrid grid input)
  | step {state : Interpreter} (reached : Reached grid state) : Reached grid state.step
  | run {state : Interpreter} (reached : Reached grid state) : Reached grid state.run
  | fork {state : Interpreter} (reached : Reached grid state) (chars : List Char) :
      Reached grid (state.fork chars)
  | setBudget {state : Interpreter} (reached : Reached grid state) (budget : Option Nat) :
      Reached grid (state.setBudget budget)
  | setTarget {state : Interpreter} (reached : Reached grid state) (target : Option String) :
      Reached grid (state.setTarget target)

structure OnHexagon (size : Nat) (state : Interpreter) : Prop where
  sized : state.grid.size = size
  inside : ∀ index : Fin 6, Shape.contains size state.pointers[index].point = true

theorem start_onHexagon (grid : Grid) (input : Input) :
    OnHexagon grid.size (ofGrid grid input) where
  sized := rfl
  inside := InstructionPointer.corners_inside grid.size_pos

theorem advance_contained {grid : Grid} {pointer : InstructionPointer}
    (inside : grid.contains pointer.point = true) (machine : Machine) :
    grid.contains (advance grid machine pointer).point = true :=
  Grid.step_inside inside pointer.heading machine.isPositive

-- Before the pointer moves on, only a skip has moved it.
theorem turn_contained (inside : state.grid.contains state.pointer.point = true) :
    state.grid.contains state.turn.pointer.point = true := by
  unfold turn
  cases state.opcode with
  | skip => exact advance_contained inside state.machine
  | _ => exact inside

theorem perform_onHexagon (onHexagon : OnHexagon size state) : OnHexagon size state.perform := by
  obtain ⟨rfl, inside⟩ := onHexagon
  cases flow : state.turn.flow with
  | halt =>
    rw [perform_of_halt flow]
    exact ⟨rfl, inside⟩
  | proceed =>
    rw [perform_of_proceed flow]
    refine ⟨rfl, ?_⟩
    intro index
    simp only [Fin.getElem_fin, Vector.getElem_set]
    split
    · exact advance_contained (turn_contained (inside state.active)) state.turn.machine
    · exact inside index

theorem step_onHexagon (onHexagon : OnHexagon size state) : OnHexagon size state.step := by
  unfold step
  split
  · exact perform_onHexagon onHexagon
  · exact onHexagon

theorem reached_onHexagon {grid : Grid} (reached : Reached grid state) :
    OnHexagon grid.size state := by
  induction reached with
  | start input => exact start_onHexagon grid input
  | step _ ih => exact step_onHexagon ih
  | run _ ih =>
    exact Clocked.runFor_keeps (P := OnHexagon grid.size) (fun _ => step_onHexagon) ih _
  | fork _ _ ih | setBudget _ _ ih | setTarget _ _ ih => exact ⟨ih.sized, ih.inside⟩

theorem perform_pointers {index : Fin 6} (idle : index ≠ state.active) :
    state.perform.pointers[index] = state.pointers[index] := by
  cases flow : state.turn.flow with
  | halt => rw [perform_of_halt flow]
  | proceed =>
    rw [perform_of_proceed flow]
    have apart : state.active.val ≠ index.val := fun same => idle (Fin.ext same.symm)
    simp only [Fin.getElem_fin, Vector.getElem_set, if_neg apart]

theorem step_pointers {index : Fin 6} (idle : index ≠ state.active) :
    state.step.pointers[index] = state.pointers[index] := by
  unfold step
  split
  · exact perform_pointers idle
  · rfl

theorem step_of_stopped (stopped : state.clock.halted = true ∨ state.clock.expired = true) :
    state.step = state := by
  rcases stopped with ceased | late
  · exact step_of_halted ceased
  · cases ceased : state.clock.halted with
    | true => exact step_of_halted ceased
    | false => simp [step, Clock.status, ceased, late]

theorem step_ticks (going : ¬(state.clock.halted = true ∨ state.clock.expired = true)) :
    state.step.clock.ticks = state.clock.ticks + 1 := by
  have running : state.clock.status = .running := by
    simp only [not_or, Bool.not_eq_true] at going
    simp [Clock.status, going]
  rw [step, if_pos running, perform_ticks]

-- In every state that a program comes to, all pointers stand on cells of the hexagon, and a step
-- that is taken counts one tick and moves the active pointer only.
theorem reached_contained {grid : Grid} (reached : Reached grid state) :
    state.active.val < 6 ∧
      (∀ index : Fin 6, grid.contains state.pointers[index].point = true ∧
        ∃ cell, state.grid.indexOf? state.pointers[index].point = some cell ∧
          state.grid.cells[cell]? = some (state.grid.get state.pointers[index].point)) ∧
      (∀ index : Fin 6, index ≠ state.active →
        state.step.pointers[index] = state.pointers[index]) ∧
      state.step.grid = state.grid ∧
      (state.clock.halted = true ∨ state.clock.expired = true → state.step = state) ∧
      (¬(state.clock.halted = true ∨ state.clock.expired = true) →
        state.step.clock.ticks = state.clock.ticks + 1) := by
  obtain ⟨sized, inside⟩ := reached_onHexagon reached
  refine ⟨state.active.isLt, ?_, fun _ => step_pointers, step_grid, step_of_stopped, step_ticks⟩
  intro index
  refine ⟨inside index, Grid.get_inside ?_⟩
  rw [Grid.contains, sized]
  exact inside index

-- A skip across the rim, a pointer switch, and a grid written anew under a program that goes on.
theorem reached_contained_forked :
    let grid := (Grid.blank 2).refill ['.', '$', ')', ']']
    let paused := ((ofGrid grid {}).setBudget (some 3)).run
    let state := ((paused.fork ['#', ']', '$', '<']).setBudget none).step
    Reached grid state ∧
      (∀ index : Fin 6, grid.contains state.pointers[index].point = true) ∧
      state.active ≠ 0 ∧ state.step.pointers[(0 : Fin 6)] = state.pointers[(0 : Fin 6)] ∧
      state.step.clock.ticks = state.clock.ticks + 1 := by
  intro grid paused state
  have reached : Reached grid state :=
    .step (.setBudget (.fork (.run (.setBudget (.start {}) (some 3))) _) none)
  have elsewhere : state.active ≠ 0 := by decide +kernel
  obtain ⟨_, inside, idle, _, _, counts⟩ := reached_contained reached
  exact ⟨reached, fun index => (inside index).1, elsewhere, idle 0 elsewhere.symm,
    counts (by decide +kernel)⟩

end Interpreter
end Hexagony
