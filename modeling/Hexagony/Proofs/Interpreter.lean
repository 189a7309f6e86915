import Hexagony.Interpreter
import Hexagony.Proofs.Execution
import Hexagony.Proofs.Grid.Wrap

namespace Hexagony

namespace Interpreter
variable {interpreter : Interpreter}

def seen (interpreter : Interpreter) : Machine × Bool :=
  (interpreter.machine, interpreter.clock.halted)

theorem step_of_halted (ceased : interpreter.clock.halted = true) : interpreter.step = interpreter := by
  simp [step, Clock.status, ceased]

theorem step_of_running (running : interpreter.clock.halted = false)
    (unlimited : interpreter.clock.budget = none) : interpreter.step = interpreter.perform := by
  simp [step, Clock.status, Clock.expired, running, unlimited]

theorem turn_of_command (harmless : interpreter.opcode.isControl = false) :
    interpreter.turn =
      {flow := (interpreter.machine.execute interpreter.opcode).1
       machine := (interpreter.machine.execute interpreter.opcode).2
       pointer := interpreter.pointer
       next := interpreter.active} := by
  unfold turn
  cases instruction : interpreter.opcode with
  | mirror | nextPointer | previousPointer | selectPointer | skip =>
    rw [instruction] at harmless
    cases harmless
  | _ => rfl

theorem turn_of_mirror {mirror : Mirror} (instruction : interpreter.opcode = .mirror mirror) :
    interpreter.turn =
      {flow := .proceed
       machine := interpreter.machine
       pointer := {interpreter.pointer with
         heading := mirror.reflect interpreter.machine.isPositive interpreter.pointer.heading}
       next := interpreter.active} := by
  simp [turn, instruction]

theorem turn_of_skip (instruction : interpreter.opcode = .skip) :
    interpreter.turn =
      {flow := .proceed
       machine := interpreter.machine
       pointer := advance interpreter.grid interpreter.machine interpreter.pointer
       next := interpreter.active} := by
  simp [turn, instruction]

theorem perform_of_proceed (proceeds : interpreter.turn.flow = .proceed) :
    interpreter.perform =
      {interpreter with
        machine := interpreter.turn.machine
        pointers := interpreter.pointers.set interpreter.active
          (advance interpreter.grid interpreter.turn.machine interpreter.turn.pointer)
          interpreter.active.isLt
        active := interpreter.turn.next
        clock := interpreter.clock.tick} := by
  simp [perform, proceeds]

theorem pointer_of_proceed (proceeds : interpreter.turn.flow = .proceed)
    (stays : interpreter.turn.next = interpreter.active) :
    interpreter.perform.pointer =
      advance interpreter.grid interpreter.turn.machine interpreter.turn.pointer := by
  simp [perform_of_proceed proceeds, pointer, stays]

theorem perform_of_halt (ends : interpreter.turn.flow = .halt) :
    interpreter.perform =
      {interpreter with
        machine := interpreter.turn.machine, clock := interpreter.clock.tick.halt} := by
  simp [perform, ends]

theorem perform_ticks (interpreter : Interpreter) :
    interpreter.perform.clock.ticks = interpreter.clock.ticks + 1 := by
  cases flow : interpreter.turn.flow with
  | halt =>
    rw [perform_of_halt flow]
    rfl
  | proceed =>
    rw [perform_of_proceed flow]
    rfl

instance : Resumable Interpreter where
  setBudget := setBudget
  perform := perform
  step_eq := fun _ => rfl
  clock_setBudget := fun _ _ => rfl
  setBudget_setBudget := fun _ _ _ => rfl
  setBudget_same := fun _ => rfl
  perform_setBudget := by
    intro interpreter budget
    have same : (interpreter.setBudget budget).turn = interpreter.turn := rfl
    cases flow : interpreter.turn.flow with
    | halt =>
      rw [perform_of_halt flow, perform_of_halt (by rw [same, flow])]
      rfl
    | proceed =>
      rw [perform_of_proceed flow, perform_of_proceed (by rw [same, flow])]
      rfl
  ticks_perform := fun interpreter _ => perform_ticks interpreter

def Succeeded (interpreter : Interpreter) : Prop :=
  interpreter.clock.halted = true ∧ interpreter.machine.output.success = true

instance (interpreter : Interpreter) : Decidable interpreter.Succeeded :=
  inferInstanceAs (Decidable (_ ∧ _))

theorem run_again (start : Interpreter) (first second : Nat) :
    ((start.setBudget (some first)).run.setBudget (some second)).run =
      (start.setBudget (some (max first second))).run.setBudget (some second) :=
  Resumable.run_again start first second

theorem succeeds_unlimited {start : Interpreter} {budget : Nat}
    (succeeded : (start.setBudget (some budget)).run.Succeeded) :
    ∃ n, (step^[n] (start.setBudget none)).Succeeded := by
  have limited : (start.setBudget (some budget)).run = _ := Resumable.run_setBudget start budget
  have free : ∀ n, step^[n] (start.setBudget none) = _ := fun n =>
    (Resumable.iterate_step rfl n).trans (Resumable.iterate_setBudget start none n)
  refine ⟨budget - start.clock.ticks, ?_⟩
  rw [free]
  rw [limited] at succeeded
  exact succeeded

theorem never_succeeds {start : Interpreter} {last : Nat}
    (ceased : (step^[last] start).clock.halted = true)
    (failed : (step^[last] start).machine.output.success = false) (n : Nat) :
    ¬(step^[n] start).Succeeded := by
  rintro ⟨ended, success⟩
  have same : step^[n] start = step^[last] start :=
    iterate_settled (step_of_halted ended) (step_of_halted ceased)
  rw [same, failed] at success
  cases success

def onGrid (interpreter : Interpreter) (grid : Grid) : Interpreter := {interpreter with grid}

section OnGrid
variable {grid : Grid}

theorem advance_of_size {other : Grid} (same : grid.size = other.size) (machine : Machine)
    (pointer : InstructionPointer) : advance grid machine pointer = advance other machine pointer := by
  rw [advance, advance, Grid.step_of_size same]

theorem turn_onGrid (same : grid.size = interpreter.grid.size)
    (agrees : (interpreter.onGrid grid).opcode = interpreter.opcode) :
    (interpreter.onGrid grid).turn = interpreter.turn := by
  have skipped : advance grid interpreter.machine interpreter.pointer = _ :=
    advance_of_size same interpreter.machine interpreter.pointer
  unfold turn
  rw [agrees]
  cases interpreter.opcode with
  | skip =>
    change Turn.mk _ _ (advance grid interpreter.machine interpreter.pointer) _ = _
    rw [skipped]
    rfl
  | _ => rfl

theorem perform_onGrid (same : grid.size = interpreter.grid.size)
    (agrees : (interpreter.onGrid grid).opcode = interpreter.opcode) :
    (interpreter.onGrid grid).perform = interpreter.perform.onGrid grid := by
  have turned := turn_onGrid same agrees
  cases flow : interpreter.turn.flow with
  | halt =>
    rw [perform_of_halt flow, perform_of_halt (by rw [turned, flow]), turned]
    rfl
  | proceed =>
    rw [perform_of_proceed flow, perform_of_proceed (by rw [turned, flow]), turned]
    simp only [onGrid]
    rw [advance_of_size same]

theorem perform_grid : interpreter.perform.grid = interpreter.grid := by
  cases flow : interpreter.turn.flow with
  | halt => rw [perform_of_halt flow]
  | proceed => rw [perform_of_proceed flow]

theorem step_grid : (Clocked.step interpreter).grid = interpreter.grid := by
  change interpreter.step.grid = _
  unfold step
  split
  · exact perform_grid
  · rfl

theorem runFor_grid (fuel : Nat) : (Clocked.runFor fuel interpreter).grid = interpreter.grid := by
  apply Clocked.runFor_keeps (P := fun state : Interpreter => state.grid = interpreter.grid) ?_ rfl
  intro state kept
  rw [step_grid, kept]

theorem path_grid {fuel : Nat} {state : Interpreter}
    (passed : state ∈ Clocked.path fuel interpreter) : state.grid = interpreter.grid := by
  induction fuel generalizing interpreter with
  | zero => cases passed
  | succ fuel ih =>
    unfold Clocked.path at passed
    split at passed
    · rcases List.mem_cons.mp passed with rfl | later
      · rfl
      · rw [ih later, step_grid]
    · cases passed

theorem step_onGrid (same : grid.size = interpreter.grid.size)
    (agrees : interpreter.clock.status = .running →
      (interpreter.onGrid grid).opcode = interpreter.opcode) :
    (interpreter.onGrid grid).step = interpreter.step.onGrid grid := by
  by_cases running : interpreter.clock.status = .running
  · have there : (interpreter.onGrid grid).clock.status = .running := running
    rw [step, step, if_pos running, if_pos there]
    exact perform_onGrid same (agrees running)
  · have there : (interpreter.onGrid grid).clock.status ≠ .running := running
    rw [step, step, if_neg running, if_neg there]

-- A program runs alike on a grid that has every instruction it executes.
theorem runFor_onGrid {fuel : Nat} (same : grid.size = interpreter.grid.size)
    (agrees : ∀ state ∈ Clocked.path fuel interpreter,
      (state.onGrid grid).opcode = state.opcode) :
    Clocked.runFor fuel (interpreter.onGrid grid) =
      (Clocked.runFor fuel interpreter).onGrid grid := by
  induction fuel generalizing interpreter with
  | zero => rfl
  | succ fuel ih =>
    by_cases running : Clocked.status interpreter = .running
    · have there : Clocked.status (interpreter.onGrid grid) = .running := running
      rw [Clocked.path_of_running running] at agrees
      have stepped : Clocked.step (interpreter.onGrid grid) =
          (Clocked.step interpreter).onGrid grid :=
        step_onGrid same fun _ => agrees interpreter List.mem_cons_self
      rw [Clocked.runFor_of_running running, Clocked.runFor_of_running there, stepped]
      refine ih (by rw [step_grid, same]) ?_
      intro state member
      exact agrees state (List.mem_cons_of_mem _ member)
    · have there : Clocked.status (interpreter.onGrid grid) ≠ .running := running
      rw [Clocked.runFor_of_stopped running, Clocked.runFor_of_stopped there]

theorem run_onGrid (same : grid.size = interpreter.grid.size)
    (agrees : ∀ state ∈ Clocked.runPath interpreter, (state.onGrid grid).opcode = state.opcode) :
    (interpreter.onGrid grid).run = interpreter.run.onGrid grid :=
  runFor_onGrid same agrees

theorem run_grid (interpreter : Interpreter) : interpreter.run.grid = interpreter.grid :=
  runFor_grid _

theorem iterate_grid (interpreter : Interpreter) (n : Nat) :
    (step^[n] interpreter).grid = interpreter.grid := by
  induction n with
  | zero => rfl
  | succ n ih =>
    rw [Function.iterate_succ_apply', ← ih]
    exact step_grid

theorem iterate_onGrid {n : Nat} (same : grid.size = interpreter.grid.size)
    (agrees : ∀ m < n, (step^[m] interpreter).clock.status = .running →
      ((step^[m] interpreter).onGrid grid).opcode = (step^[m] interpreter).opcode) :
    step^[n] (interpreter.onGrid grid) = (step^[n] interpreter).onGrid grid := by
  induction n with
  | zero => rfl
  | succ n ih =>
    rw [Function.iterate_succ_apply', Function.iterate_succ_apply',
      ih fun m before => agrees m (Nat.lt_succ_of_lt before)]
    exact step_onGrid (by rw [iterate_grid, same]) (agrees n (Nat.lt_succ_self n))

end OnGrid

theorem run_setBudget_steps {start : Interpreter} (unlimited : start.clock.budget = none)
    (fresh : start.clock.ticks = 0) (ticks : Nat) :
    (start.setBudget (some ticks)).run = (step^[ticks] start).setBudget (some ticks) := by
  have limited : (start.setBudget (some ticks)).run =
      (Resumable.next^[ticks - start.clock.ticks] start).setBudget (some ticks) :=
    Resumable.run_setBudget start ticks
  have free : step^[ticks] start = Resumable.next^[ticks] start :=
    Resumable.iterate_step unlimited ticks
  rw [limited, free, fresh, Nat.sub_zero]

-- What has been run on one grid need not be run again on another that has the same characters in
-- the cells from which an instruction was executed. It makes no difference whether the ticks are
-- counted by the caller or by a budget.
theorem fork_transparent {grid : Grid} {input : Input} {target : Option String} {ticks : Nat}
    {chars : List Char}
    (agrees : ∀ tick < ticks,
      let state := step^[tick] ((ofGrid grid input).setTarget target)
      state.clock.halted = false →
        (grid.refill chars).get state.pointer.point = grid.get state.pointer.point) :
    let begun := (ofGrid grid input).setTarget target
    let fresh := (ofGrid (grid.refill chars) input).setTarget target
    (step^[ticks] begun).fork chars = step^[ticks] fresh ∧
      (begun.setBudget (some ticks)).run.fork chars = (fresh.setBudget (some ticks)).run := by
  intro begun fresh
  have alike : ∀ tick < ticks, (step^[tick] begun).clock.status = .running →
      ((step^[tick] begun).onGrid (grid.refill chars)).opcode = (step^[tick] begun).opcode := by
    intro tick before running
    have going : (step^[tick] begun).clock.halted = false := by
      cases ceased : (step^[tick] begun).clock.halted with
      | false => rfl
      | true => simp [Clock.status, ceased] at running
    have cell := agrees tick before going
    have here : (step^[tick] begun).grid = grid := iterate_grid begun tick
    rw [opcode, opcode, here]
    exact congrArg Opcode.decode cell
  have moved : step^[ticks] (begun.onGrid (grid.refill chars)) =
      (step^[ticks] begun).onGrid (grid.refill chars) := iterate_onGrid rfl alike
  have stepped : (step^[ticks] begun).fork chars = step^[ticks] fresh := by
    have here : (step^[ticks] begun).grid = grid := iterate_grid begun ticks
    rw [fork, here]
    exact moved.symm
  refine ⟨stepped, ?_⟩
  rw [run_setBudget_steps rfl rfl, run_setBudget_steps rfl rfl, ← stepped]
  rfl

-- A cell that is skipped and one that is never come to are written anew; the program has ended
-- before the ticks are over.
theorem fork_transparent_skipped :
    let grid := (Grid.blank 2).refill ['$', '!', ')', '@']
    let chars := ['$', '@', ')', '@', '?', '?']
    (∀ tick < 5,
      let state := step^[tick] ((ofGrid grid {}).setTarget (some "1"))
      state.clock.halted = false →
        (grid.refill chars).get state.pointer.point = grid.get state.pointer.point) ∧
      grid.refill chars ≠ grid ∧
      let ended := step^[5] ((ofGrid (grid.refill chars) {}).setTarget (some "1"))
      (step^[5] ((ofGrid grid {}).setTarget (some "1"))).fork chars = ended ∧
        ended.clock.halted = true ∧ ended.clock.ticks = 3 := by
  intro grid chars
  have agrees : ∀ tick < 5,
      let state := step^[tick] ((ofGrid grid {}).setTarget (some "1"))
      state.clock.halted = false →
        (grid.refill chars).get state.pointer.point = grid.get state.pointer.point := by
    decide +kernel
  exact ⟨agrees, by decide +kernel, (fork_transparent agrees).1, by decide +kernel,
    by decide +kernel⟩

end Interpreter
end Hexagony
