import Hexagony.Proofs.Verdict
import Hexagony.Search.Trial

namespace Hexagony.Search
variable {config : Config} {program : List Char}

theorem solves_iff (start : Interpreter) :
    solves config start program = true ↔
      ((start.fork program).setBudget
          (some (max config.probeTicks config.maxTicks))).run.Succeeded ∧
        promising ((start.fork program).setBudget (some config.probeTicks)).run = true := by
  have again := Interpreter.run_again (start.fork program) config.probeTicks config.maxTicks
  unfold solves probeStart fullStart
  dsimp only
  generalize ((start.fork program).setBudget (some config.probeTicks)).run = probed at again ⊢
  have expired : (probed.setBudget (some config.maxTicks)).run.clock.timedOut =
      !(probed.setBudget (some config.maxTicks)).run.clock.halted :=
    Resumable.run_timedOut probed config.maxTicks
  rw [expired, again]
  cases promising probed with
  | false => simp
  | true =>
    simp only [if_true, Bool.not_not, Bool.and_eq_true, and_true]
    exact and_comm

theorem solves_iff_printed (start : Interpreter) :
    solves config start program = true ↔
      ((start.fork program).setBudget
          (some (max config.probeTicks config.maxTicks))).run.Succeeded ∧
        1 ≤ ((start.fork program).setBudget
          (some config.probeTicks)).run.machine.output.length := by
  rw [solves_iff, promising, Bool.and_eq_true, decide_eq_true_eq]
  constructor
  · rintro ⟨succeeded, _, printed⟩
    exact ⟨succeeded, printed⟩
  · rintro ⟨succeeded, printed⟩
    exact ⟨succeeded, Interpreter.success_of_longer (Nat.le_max_left _ _) succeeded.2, printed⟩

theorem solves_iff_of_begun {begun start : Interpreter}
    (reached : start.fork program = (begun.setBudget (some config.prefixTicks)).run) :
    solves config start program = true ↔
      (begun.setBudget
          (some (max config.prefixTicks (max config.probeTicks config.maxTicks)))).run.Succeeded ∧
        1 ≤ (begun.setBudget
          (some (max config.prefixTicks config.probeTicks))).run.machine.output.length := by
  rw [solves_iff_printed, reached, Interpreter.run_again, Interpreter.run_again]
  rfl

-- Whatever state the candidates start from and whichever of the two budgets is larger, trying a
-- candidate in two stages comes to one run under the larger budget, as long as something has been
-- printed within the first. What fits after the full run has fitted when it was first looked at.
theorem solves_in_one_run (config : Config) (start : Interpreter) (program : List Char) :
    let forked := start.fork program
    let probed := (forked.setBudget (some config.probeTicks)).run
    let finished := (forked.setBudget (some (max config.probeTicks config.maxTicks))).run
    (solves config start program = true ↔
        finished.Succeeded ∧ 1 ≤ probed.machine.output.length) ∧
      (finished.Succeeded → probed.machine.output.success = true) := by
  intro forked probed finished
  refine ⟨solves_iff_printed start, ?_⟩
  intro succeeded
  exact Interpreter.success_of_longer (Nat.le_max_left _ _) succeeded.2

-- Three ticks are shared, more than the first budget may allow. The last instruction of the
-- candidate is met within the larger budget, whichever of the two that is, or within neither.
theorem solves_in_one_run_resumed :
    let config (probeTicks maxTicks : Nat) : Config :=
      {template := "!)!.", target := "01", available := ['@'], probeTicks, maxTicks}
    let program := ['!', ')', '!', '@']
    (base (config 2 4)).clock.ticks = 3 ∧
      solves (config 2 4) (base (config 2 4)) program = true ∧
      solves (config 4 2) (base (config 4 2)) program = true ∧
      solves (config 2 3) (base (config 2 3)) program = false ∧
      (((base (config 2 4)).fork program).setBudget
        (some (config 2 4).probeTicks)).run.machine.output.success = true := by
  intro config program
  obtain ⟨rising, fitted⟩ := solves_in_one_run (config 2 4) (base (config 2 4)) program
  obtain ⟨falling, _⟩ := solves_in_one_run (config 4 2) (base (config 4 2)) program
  obtain ⟨short, _⟩ := solves_in_one_run (config 2 3) (base (config 2 3)) program
  refine ⟨by decide +kernel, rising.mpr (by decide +kernel), falling.mpr (by decide +kernel), ?_,
    fitted (by decide +kernel)⟩
  refine Bool.eq_false_iff.mpr fun solved => ?_
  exact absurd (short.mp solved).1 (by decide +kernel)

end Hexagony.Search
