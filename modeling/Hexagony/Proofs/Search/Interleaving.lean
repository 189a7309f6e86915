import Mathlib.Data.List.Perm.Basic
import Hexagony.Proofs.Search.Dispatch
import Hexagony.Proofs.Search.Tally

namespace Hexagony.Search

namespace Tally

theorem count_comm (tally : Tally) (first second : Trial) :
    (tally.count first).count second = (tally.count second).count first := by
  have found : ((tally.count first).count second).solutions =
      ((tally.count second).count first).solutions := by
    apply Std.ExtTreeSet.ext_mem
    intro text
    simp only [mem_count, or_right_comm]
  cases first with
  | skipped => cases second <;> rfl
  | tried program solved =>
    cases second with
    | skipped => rfl
    | tried other succeeded => simpa [count] using found

theorem countBatch_perm {batch other : List Trial} (same : batch.Perm other) (tally : Tally) :
    tally.countBatch batch = tally.countBatch other := by
  have commutes : RightCommutative count := ⟨count_comm⟩
  rw [countBatch, countBatch, same.foldl_eq]

end Tally

theorem runWith_perm {config : Config} {deal other : Deal}
    (same : ∀ reserved ∈ reservations config,
      (deal reserved (items config (base config) reserved)).Perm
        (other reserved (items config (base config) reserved))) :
    runWith deal config = runWith other config := by
  unfold runWith
  dsimp only
  rw [List.foldl_ext]
  intro tally reserved chosen
  exact Tally.countBatch_perm (same reserved chosen) tally

theorem run_of_dispatched {cores : Nat} {mode : ThreadMode} {config : Config} {deal : Deal}
    (dispatched : ∀ reserved ∈ reservations config,
      Dispatched cores mode (items config (base config) reserved)
        (deal reserved (items config (base config) reserved))) :
    runWith deal {config with threads := mode} = run cores {config with threads := .sequential} := by
  apply runWith_perm
  intro reserved chosen
  have inline : Dispatched cores .sequential (items config (base config) reserved)
      (dispatch cores .sequential (items config (base config) reserved)) :=
    dispatch_dispatched cores .sequential _
  exact (dispatched reserved chosen).perm.trans inline.perm.symm

-- Whatever the schedule of two or more workers, they can come to their end, and then every item has
-- been given out once. So the report of a search is that of a single thread, in every mode and with
-- every schedule.
theorem report_independent :
    (∀ {ε : Type} {threads : Nat} (items : List (List ε)) (schedule : List Nat), 2 ≤ threads →
      let pool := (Pool.start threads items).follow schedule
      (∃ rest, (pool.follow rest).finished = true) ∧
        (pool.finished = true → pool.effects.Perm items.flatten ∧
          ∀ index, pool.given.count index = if index < items.length then 1 else 0)) ∧
      ∀ (cores : Nat) (mode : ThreadMode) (config : Config) (deal : Deal),
        (∀ reserved ∈ reservations config,
          Dispatched cores mode (items config (base config) reserved)
            (deal reserved (items config (base config) reserved))) →
          runWith deal {config with threads := mode} =
            run cores {config with threads := .sequential} := by
  constructor
  · intro ε threads items schedule several pool
    have sound : Pool.Sound items pool :=
      Pool.follow_sound (Pool.start_sound (by omega) items) schedule
    refine ⟨Pool.exists_finish pool, fun finished => ⟨?_, ?_⟩⟩
    · exact Pool.effects_of_finished sound finished
    · exact Pool.given_count sound finished
  · intro cores mode config deal dispatched
    exact run_of_dispatched dispatched

-- Two workers that do the second of two orderings first.
theorem report_independent_swapped :
    let schedule := [1, 0, 0, 1, 1, 0, 1, 0]
    let pool := (Pool.start 2 [['a', 'b'], ['c']]).follow (schedule ++ [1, 1])
    let config : Config :=
      {template := "..", target := "0", required := ['!', '@'], prefixTicks := 0}
    let deal : Deal := fun _ items => ((Pool.start 2 items).follow schedule).effects.reverse
    let items := items config (base config) [0, 1]
    (pool.finished = true ∧ pool.given.count 1 = 1 ∧ pool.given.count 2 = 0) ∧
      (∀ reserved ∈ reservations config, reserved = [0, 1]) ∧
      Dispatched 1 (.pool 2) items (deal [0, 1] items) ∧ deal [0, 1] items ≠ items.flatten ∧
      runWith deal {config with threads := .pool 2} =
        run 1 {config with threads := .sequential} := by
  intro schedule pool config deal items
  obtain ⟨given, reported⟩ := report_independent
  have ended : pool.finished = true := by decide +kernel
  have counts := ((given _ _ (Nat.le_refl 2)).2 ended).2
  have single : ∀ reserved ∈ reservations config, reserved = [0, 1] := by decide
  have dispatched : Dispatched 1 (.pool 2) items (deal [0, 1] items) :=
    ⟨schedule, by decide +kernel, rfl⟩
  refine ⟨⟨ended, counts 1, counts 2⟩, single, dispatched, by decide +kernel, ?_⟩
  apply reported
  intro reserved chosen
  rw [single reserved chosen]
  exact dispatched

end Hexagony.Search
