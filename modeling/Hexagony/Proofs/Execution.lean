import Mathlib.Logic.Function.Iterate
import Mathlib.Tactic.Common
import Hexagony.Execution

namespace Hexagony

theorem iterate_settled {σ : Type} {f : σ → σ} {s : σ} {n m : Nat}
    (first : f (f^[n] s) = f^[n] s) (second : f (f^[m] s) = f^[m] s) : f^[n] s = f^[m] s := by
  have later {k l : Nat} (still : f (f^[k] s) = f^[k] s) (after : k ≤ l) : f^[l] s = f^[k] s := by
    obtain ⟨more, rfl⟩ := Nat.exists_eq_add_of_le after
    rw [Nat.add_comm, Function.iterate_add_apply]
    exact Function.iterate_fixed still more
  rcases Nat.le_total n m with before | before
  · exact (later first before).symm
  · exact later second before

namespace Clocked
variable {σ : Type} [Clocked σ] {s : σ}

theorem runFor_of_running {fuel : Nat} (running : status s = .running) :
    runFor (fuel + 1) s = runFor fuel (step s) := by
  rw [runFor, if_pos running]

theorem runFor_of_stopped {fuel : Nat} (stopped : status s ≠ .running) : runFor fuel s = s := by
  cases fuel with
  | zero => rfl
  | succ fuel => rw [runFor, if_neg stopped]

theorem runFor_keeps {P : σ → Prop} (keeps : ∀ s, P s → P (step s)) (holds : P s) (fuel : Nat) :
    P (runFor fuel s) := by
  induction fuel generalizing s with
  | zero => exact holds
  | succ fuel ih =>
    unfold runFor
    split
    · exact ih (keeps s holds)
    · exact holds

theorem path_of_running {fuel : Nat} (running : status s = .running) :
    path (fuel + 1) s = s :: path fuel (step s) := by
  rw [path, if_pos running]

theorem runFor_of_halted (ceased : (clock s).halted = true) (fuel : Nat) : runFor fuel s = s :=
  runFor_of_stopped (by simp [status, Clock.status, ceased])

theorem status_of_early {budget : Nat} (limited : (clock s).budget = some budget)
    (early : (clock s).ticks < budget) (going : (clock s).halted = false) :
    status s = .running := by
  simp [status, Clock.status, Clock.expired, limited, going, early]

end Clocked

-- Something that runs by the clock and does not look at its budget otherwise. An action that does
-- not end the program counts one tick.
class Resumable (σ : Type) [Clocked σ] where
  setBudget : σ → Option Nat → σ
  perform : σ → σ
  step_eq : ∀ s : σ, Clocked.step s = if Clocked.status s = .running then perform s else s
  clock_setBudget : ∀ (s : σ) (budget : Option Nat),
    Clocked.clock (setBudget s budget) = {Clocked.clock s with budget}
  setBudget_setBudget : ∀ (s : σ) (first second : Option Nat),
    setBudget (setBudget s first) second = setBudget s second
  setBudget_same : ∀ s : σ, setBudget s (Clocked.clock s).budget = s
  perform_setBudget : ∀ (s : σ) (budget : Option Nat),
    perform (setBudget s budget) = setBudget (perform s) budget
  ticks_perform : ∀ s : σ, (Clocked.clock (perform s)).halted = false →
    (Clocked.clock (perform s)).ticks = (Clocked.clock s).ticks + 1

namespace Resumable
open Clocked
variable {σ : Type} [Clocked σ] [Resumable σ] {s : σ}

def next (s : σ) : σ := if (clock s).halted then s else perform s

theorem next_of_halted (ceased : (clock s).halted = true) : next s = s := by
  rw [next, if_pos ceased]

theorem next_of_going (going : (clock s).halted = false) : next s = perform s := by
  rw [next, going]
  rfl

theorem iterate_of_halted (ceased : (clock s).halted = true) (n : Nat) : next^[n] s = s :=
  Function.iterate_fixed (next_of_halted ceased) n

theorem next_setBudget (s : σ) (budget : Option Nat) :
    next (setBudget s budget) = setBudget (next s) budget := by
  unfold next
  rw [clock_setBudget]
  cases (clock s).halted with
  | true => rfl
  | false => exact perform_setBudget s budget

theorem iterate_setBudget (s : σ) (budget : Option Nat) (n : Nat) :
    next^[n] (setBudget s budget) = setBudget (next^[n] s) budget := by
  induction n with
  | zero => rfl
  | succ n ih => rw [Function.iterate_succ_apply', Function.iterate_succ_apply', ih, next_setBudget]

theorem budget_next (s : σ) : (clock (next s)).budget = (clock s).budget := by
  have kept := next_setBudget s (clock s).budget
  rw [setBudget_same] at kept
  rw [kept, clock_setBudget]

theorem ticks_iterate {n : Nat} (going : (clock (next^[n] s)).halted = false) :
    (clock (next^[n] s)).ticks = (clock s).ticks + n := by
  induction n generalizing s with
  | zero => rfl
  | succ n ih =>
    rw [Function.iterate_succ_apply] at going ⊢
    cases ceased : (clock s).halted with
    | true =>
      rw [next_of_halted ceased, iterate_of_halted ceased, ceased] at going
      cases going
    | false =>
      rw [ih going, next_of_going ceased]
      have alive : (clock (perform s)).halted = false := by
        cases ended : (clock (perform s)).halted with
        | false => rfl
        | true =>
          rw [next_of_going ceased, iterate_of_halted ended, ended] at going
          cases going
      rw [ticks_perform s alive]
      omega

theorem runFor_eq {budget fuel : Nat} (limited : (clock s).budget = some budget)
    (left : fuel = budget - (clock s).ticks) : runFor fuel s = next^[fuel] s := by
  induction fuel generalizing s with
  | zero => rfl
  | succ fuel ih =>
    cases ceased : (clock s).halted with
    | true => rw [runFor_of_halted ceased, iterate_of_halted ceased]
    | false =>
      have running := status_of_early limited (by omega) ceased
      rw [runFor_of_running running, step_eq, if_pos running, ← next_of_going ceased,
        Function.iterate_succ_apply]
      cases ended : (clock (next s)).halted with
      | true => rw [runFor_of_halted ended, iterate_of_halted ended]
      | false =>
        have ticked : (clock (next s)).ticks = (clock s).ticks + 1 := ticks_iterate (n := 1) ended
        exact ih ((budget_next s).trans limited) (by omega)

theorem run_setBudget (s : σ) (budget : Nat) :
    run (setBudget s (some budget)) =
      setBudget (next^[budget - (clock s).ticks] s) (some budget) := by
  have limited : (clock (setBudget s (some budget))).budget = some budget := by
    rw [clock_setBudget]
  have fuel : (clock (setBudget s (some budget))).remaining = budget - (clock s).ticks := by
    simp [Clock.remaining, clock_setBudget]
  rw [run, fuel, runFor_eq limited (by rw [clock_setBudget]), iterate_setBudget]

theorem run_again (s : σ) (first second : Nat) :
    run (setBudget (run (setBudget s (some first))) (some second)) =
      setBudget (run (setBudget s (some (max first second)))) (some second) := by
  simp only [run_setBudget, setBudget_setBudget]
  rw [← Function.iterate_add_apply]
  cases ceased : (clock (next^[first - (clock s).ticks] s)).halted with
  | true =>
    have longer : max first second - (clock s).ticks =
        max first second - (clock s).ticks - (first - (clock s).ticks) +
          (first - (clock s).ticks) := by omega
    rw [longer, Function.iterate_add_apply, Function.iterate_add_apply,
      iterate_of_halted ceased, iterate_of_halted ceased]
  | false =>
    have ticked := ticks_iterate ceased
    congr 2
    omega

theorem run_timedOut (s : σ) (budget : Nat) :
    (clock (run (setBudget s (some budget)))).timedOut =
      !(clock (run (setBudget s (some budget)))).halted := by
  rw [run_setBudget, clock_setBudget]
  cases ceased : (clock (next^[budget - (clock s).ticks] s)).halted with
  | true => simp [Clock.timedOut, ceased]
  | false =>
    have ticked := ticks_iterate ceased
    simp only [Clock.timedOut, Clock.expired, ceased, Bool.not_false, Bool.true_and,
      decide_eq_true_eq]
    omega

theorem iterate_step {s : σ} (unlimited : (clock s).budget = none) (n : Nat) :
    step^[n] s = next^[n] s := by
  induction n generalizing s with
  | zero => rfl
  | succ n ih =>
    have once : step s = next s := by
      rw [step_eq, next]
      cases ceased : (clock s).halted <;>
        simp [status, Clock.status, Clock.expired, unlimited, ceased]
    rw [Function.iterate_succ_apply, Function.iterate_succ_apply, once]
    exact ih ((budget_next s).trans unlimited)

end Resumable
end Hexagony
