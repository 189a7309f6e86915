import Hexagony.Proofs.Interpreter
import Hexagony.Proofs.Scaffold.Journey

namespace Hexagony

namespace Clocked
variable {σ : Type} [Clocked σ]

-- Steps are taken one after the other, and the first state that is not running is the last one.
def Stops (start final : σ) : Prop :=
  ∃ n, step^[n] start = final ∧ status final ≠ .running ∧
    ∀ m < n, status (step^[m] start) = .running

theorem runFor_stops {fuel : Nat} {start : σ} (stopped : status (runFor fuel start) ≠ .running) :
    Stops start (runFor fuel start) := by
  induction fuel generalizing start with
  | zero => exact ⟨0, rfl, stopped, fun m before => absurd before (Nat.not_lt_zero m)⟩
  | succ fuel ih =>
    by_cases running : status start = .running
    · rw [runFor_of_running running] at stopped ⊢
      obtain ⟨n, reached, last, earlier⟩ := ih stopped
      refine ⟨n + 1, reached, last, ?_⟩
      intro m before
      cases m with
      | zero => exact running
      | succ m => exact earlier m (Nat.lt_of_succ_lt_succ before)
    · rw [runFor_of_stopped running]
      exact ⟨0, rfl, running, fun m before => absurd before (Nat.not_lt_zero m)⟩

-- Runs under one budget after the other, compared with a single run under the last budget. What
-- a run answers is the status of the state it ends in, so the same state is the same answer.
structure Staged (setBudget : σ → Option Nat → σ) (run : σ → σ) (start : σ) (budgets : List Nat)
    (last : Nat) : Prop where
  stops : ∀ (state : σ) (budget : Nat),
    Stops (setBudget state (some budget)) (run (setBudget state (some budget)))
  same : budgets.foldl (fun state budget => run (setBudget state (some budget))) start =
    run (setBudget start (some last))
  bounded : (clock (run (setBudget start (some last)))).ticks ≤ max last (clock start).ticks
  timedOut : ∀ (state : σ) (budget : Nat),
    status (run (setBudget state (some budget))) = .timedOut ↔
      (clock (run (setBudget state (some budget)))).halted = false

end Clocked

namespace Resumable
open Clocked
variable {σ : Type} [Clocked σ] [Resumable σ] {start : σ} {budget : Nat}

theorem run_status (start : σ) (budget : Nat) :
    status (run (setBudget start (some budget))) =
      if (clock (run (setBudget start (some budget)))).halted then .halted else .timedOut := by
  have expired := run_timedOut start budget
  unfold Clock.timedOut at expired
  unfold status Clock.status
  cases ceased : (clock (run (setBudget start (some budget)))).halted with
  | true => rfl
  | false =>
    rw [ceased] at expired
    have late : (clock (run (setBudget start (some budget)))).expired = true := by
      simpa using expired
    simp [late]

theorem run_stops (start : σ) (budget : Nat) :
    Stops (setBudget start (some budget)) (run (setBudget start (some budget))) := by
  apply runFor_stops
  have verdict := run_status start budget
  unfold run at verdict
  rw [verdict]
  split <;> simp

theorem run_larger {first second : Nat} (start : σ) (larger : first ≤ second) :
    run (setBudget (run (setBudget start (some first))) (some second)) =
      run (setBudget start (some second)) := by
  rw [run_again, Nat.max_eq_right larger, run_setBudget, setBudget_setBudget]

theorem run_rising {budgets : List Nat} (begun : budgets ≠ [])
    (rising : budgets.Pairwise (· ≤ ·)) (start : σ) :
    budgets.foldl (fun state budget => run (setBudget state (some budget))) start =
      run (setBudget start (some (budgets.getLast begun))) := by
  induction budgets generalizing start with
  | nil => exact absurd rfl begun
  | cons first rest ih =>
    obtain ⟨least, later⟩ := List.pairwise_cons.mp rising
    rw [List.foldl_cons]
    cases rest with
    | nil => rfl
    | cons second others =>
      have more := List.cons_ne_nil second others
      rw [ih more later, List.getLast_cons more]
      exact run_larger start (least _ (List.getLast_mem _))

section Counting
variable (counts : ∀ s : σ, (clock (perform s)).ticks ≤ (clock s).ticks + 1)
include counts

theorem next_ticks (s : σ) : (clock (next s)).ticks ≤ (clock s).ticks + 1 := by
  unfold next
  split
  · exact Nat.le_succ _
  · exact counts s

theorem iterate_ticks (s : σ) (n : Nat) : (clock (next^[n] s)).ticks ≤ (clock s).ticks + n := by
  induction n with
  | zero => exact Nat.le_refl _
  | succ n ih =>
    rw [Function.iterate_succ_apply']
    have once := next_ticks counts (next^[n] s)
    omega

theorem run_ticks (s : σ) (budget : Nat) :
    (clock (run (setBudget s (some budget)))).ticks ≤ max budget (clock s).ticks := by
  have bound := iterate_ticks counts s (budget - (clock s).ticks)
  rw [run_setBudget, clock_setBudget]
  dsimp only
  omega

theorem staged {budgets : List Nat} (begun : budgets ≠ []) (rising : budgets.Pairwise (· ≤ ·))
    (start : σ) : Staged setBudget run start budgets (budgets.getLast begun) where
  stops := run_stops
  same := run_rising begun rising start
  bounded := run_ticks counts start _
  timedOut := by
    intro state budget
    rw [run_status]
    cases (clock (run (setBudget state (some budget)))).halted <;> simp

end Counting
end Resumable

namespace Replay
variable {replay : Replay}

theorem visit_setBudget (replay : Replay) (budget : Option Nat) (node : Node) :
    (replay.setBudget budget).visit node =
      ((replay.visit node).1, (replay.visit node).2.setBudget budget) := by
  cases node with
  | loop body phase =>
    simp only [visit, setBudget]
    cases body[replay.loopPhase.getD phase]? <;> rfl
  | _ => rfl

theorem current_setBudget (replay : Replay) (budget : Option Nat) :
    (replay.setBudget budget).nodes[(replay.setBudget budget).node]? =
      replay.nodes[replay.node]? := rfl

theorem forgetPhase_setBudget (replay : Replay) (budget : Option Nat) :
    (replay.setBudget budget).forgetPhase = replay.forgetPhase.setBudget budget := by
  unfold forgetPhase
  rw [current_setBudget]
  cases replay.nodes[replay.node]? with
  | none => rfl
  | some node => cases node <;> rfl

theorem perform_of_ended (past : replay.nodes[replay.node]? = none) :
    replay.perform = {replay with clock := replay.clock.halt} := by
  rw [perform, past]

theorem perform_of_node {node : Node} (here : replay.nodes[replay.node]? = some node) :
    replay.perform =
      {(replay.visit node).2.forgetPhase with
        clock := match (replay.visit node).1 with
          | .halt => replay.clock.tick.halt
          | .proceed => replay.clock.tick} := by
  rewrite [perform, here]
  rfl

theorem perform_setBudget (replay : Replay) (budget : Option Nat) :
    (replay.setBudget budget).perform = replay.perform.setBudget budget := by
  have there := current_setBudget replay budget
  cases here : replay.nodes[replay.node]? with
  | none =>
    rw [perform_of_ended here, perform_of_ended (there.trans here)]
    rfl
  | some node =>
    rw [perform_of_node here, perform_of_node (there.trans here), visit_setBudget,
      forgetPhase_setBudget]
    cases (replay.visit node).1 <;> rfl

theorem perform_ticks_le (replay : Replay) :
    replay.perform.clock.ticks ≤ replay.clock.ticks + 1 := by
  cases here : replay.nodes[replay.node]? with
  | none =>
    rw [perform_of_ended here]
    exact Nat.le_succ _
  | some node =>
    rw [perform_of_node here]
    cases (replay.visit node).1 <;> exact Nat.le_refl _

theorem perform_ticks_going (going : replay.perform.clock.halted = false) :
    replay.perform.clock.ticks = replay.clock.ticks + 1 := by
  cases here : replay.nodes[replay.node]? with
  | none =>
    rw [perform_of_ended here] at going
    cases going
  | some node =>
    rw [perform_of_node here]
    cases (replay.visit node).1 <;> rfl

instance : Resumable Replay where
  setBudget := setBudget
  perform := perform
  step_eq := fun _ => rfl
  clock_setBudget := fun _ _ => rfl
  setBudget_setBudget := fun _ _ _ => rfl
  setBudget_same := fun _ => rfl
  perform_setBudget := perform_setBudget
  ticks_perform := fun _ => perform_ticks_going

end Replay

-- Whatever state an interpreter or a replay is in, runs under rising budgets all come to an end,
-- the last of them where a single run under the last budget does. Such a run goes no further than
-- the budget, and it is out of time exactly if the program has not ended.
theorem runs_resumable {budgets : List Nat} (begun : budgets ≠ [])
    (rising : budgets.Pairwise (· ≤ ·)) :
    (∀ start : Interpreter, Clocked.Staged Interpreter.setBudget Interpreter.run start budgets
      (budgets.getLast begun)) ∧
      ∀ start : Replay, Clocked.Staged Replay.setBudget Replay.run start budgets
        (budgets.getLast begun) := by
  constructor
  · exact Resumable.staged (fun interpreter => Nat.le_of_eq interpreter.perform_ticks) begun rising
  · exact Resumable.staged Replay.perform_ticks_le begun rising

-- No budget at first, the same one twice, and then more than a program needs to its end and less
-- than a loop would.
theorem runs_resumable_stages :
    let budgets := [0, 1, 1, 5]
    let program := Interpreter.ofGrid ((Grid.blank 2).refill [')', '@']) {}
    let loop : Replay := {nodes := #[.loop [0] 0], commands := #[.increment], machine := {}}
    let ended := budgets.foldl (fun state budget => (state.setBudget (some budget)).run) program
    let paused := budgets.foldl (fun state budget => (state.setBudget (some budget)).run) loop
    budgets ≠ [] ∧ budgets.Pairwise (· ≤ ·) ∧
      ended = (program.setBudget (some 5)).run ∧ ended.status = .halted ∧ ended.clock.ticks = 2 ∧
      paused = (loop.setBudget (some 5)).run ∧ paused.status = .timedOut ∧
      paused.clock.ticks ≤ 5 := by
  intro budgets program loop ended paused
  have begun : budgets ≠ [] := by decide
  have rising : budgets.Pairwise (· ≤ ·) := by decide
  obtain ⟨interprets, replays⟩ := runs_resumable begun rising
  have programSame : ended = (program.setBudget (some 5)).run := (interprets program).same
  have loopSame : paused = (loop.setBudget (some 5)).run := (replays loop).same
  have going : (loop.setBudget (some 5)).run.clock.halted = false := by decide +kernel
  refine ⟨begun, rising, programSame, ?_, ?_, loopSame, ?_, ?_⟩
  · rw [programSame]
    decide +kernel
  · rw [programSame]
    decide +kernel
  · rw [loopSame]
    exact ((replays loop).timedOut loop 5).mpr going
  · rw [loopSame]
    exact (replays loop).bounded

end Hexagony
