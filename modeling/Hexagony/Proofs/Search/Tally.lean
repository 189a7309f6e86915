import Mathlib.Data.String.Basic
import Hexagony.Proofs.Listing
import Hexagony.Search.Report

namespace Hexagony.Search

def Trial.program? : Trial → Option (List Char)
  | .skipped => none
  | .tried program _ => some program

def Trial.solution? : Trial → Option String
  | .tried program true => some (String.ofList program)
  | .tried _ false | .skipped => none

theorem Trial.mem_solutions {trials : List Trial} {text : String} :
    text ∈ trials.filterMap solution? ↔
      ∃ program, .tried program true ∈ trials ∧ text = String.ofList program := by
  rw [List.mem_filterMap]
  constructor
  · rintro ⟨trial, member, found⟩
    cases trial with
    | skipped => cases found
    | tried program solved =>
      cases solved with
      | false => cases found
      | true =>
        cases found
        exact ⟨program, member, rfl⟩
  · rintro ⟨program, member, rfl⟩
    exact ⟨_, member, rfl⟩

def dealt (deal : Deal) (config : Config) : List Trial :=
  (reservations config).flatMap fun reserved => deal reserved (items config (base config) reserved)

def tallied (deal : Deal) (config : Config) : Tally :=
  (reservations config).foldl
    (fun tally reserved => tally.countBatch (deal reserved (items config (base config) reserved))) {}

def made (cores : Nat) (config : Config) : List Trial :=
  (reservations config).flatMap fun reserved =>
    config.deal cores reserved (items config (base config) reserved)

def attempts (cores : Nat) (config : Config) : List (List Char) :=
  (made cores config).filterMap Trial.program?

namespace Tally
variable {tally : Tally} {trials : List Trial} {text : String}

theorem mem_count {trial : Trial} :
    text ∈ (tally.count trial).solutions ↔
      text ∈ tally.solutions ∨
        ∃ program, trial = .tried program true ∧ text = String.ofList program := by
  cases trial with
  | skipped => simp [count]
  | tried program solved =>
    cases solved with
    | false => simp [count]
    | true =>
      rw [count, if_pos rfl, Std.ExtTreeSet.mem_insert, Std.LawfulEqCmp.compare_eq_iff_eq, or_comm]
      simp [eq_comm]

theorem mem_foldl_count :
    text ∈ (trials.foldl count tally).solutions ↔
      text ∈ tally.solutions ∨
        ∃ program, .tried program true ∈ trials ∧ text = String.ofList program := by
  induction trials generalizing tally with
  | nil => simp
  | cons first rest ih =>
    rw [List.foldl_cons, ih, mem_count]
    simp only [List.mem_cons, or_and_right, exists_or, or_assoc, eq_comm]

theorem foldl_count_candidates :
    (trials.foldl count tally).candidates =
      tally.candidates + (trials.filterMap Trial.program?).length := by
  induction trials generalizing tally with
  | nil => rfl
  | cons first rest ih =>
    rw [List.foldl_cons, ih]
    cases first with
    | skipped => rfl
    | tried program solved =>
      have listed : (Trial.tried program solved :: rest).filterMap Trial.program? =
          program :: rest.filterMap Trial.program? := rfl
      have counted : (tally.count (.tried program solved)).candidates = tally.candidates + 1 := rfl
      rw [listed, List.length_cons, counted]
      omega

section Batches
variable {α : Type} (batches : List α) (batch : α → List Trial)

theorem mem_foldl_countBatch :
    text ∈ (batches.foldl (fun tally item => tally.countBatch (batch item)) tally).solutions ↔
      text ∈ tally.solutions ∨
        ∃ program, .tried program true ∈ batches.flatMap batch ∧ text = String.ofList program := by
  induction batches generalizing tally with
  | nil => simp
  | cons first rest ih =>
    rw [List.foldl_cons, ih, List.flatMap_cons, countBatch, mem_foldl_count]
    simp only [List.mem_append, or_and_right, exists_or, or_assoc]

theorem foldl_countBatch_candidates :
    (batches.foldl (fun tally item => tally.countBatch (batch item)) tally).candidates =
      tally.candidates + ((batches.flatMap batch).filterMap Trial.program?).length := by
  induction batches generalizing tally with
  | nil => rfl
  | cons first rest ih =>
    rw [List.foldl_cons, ih, List.flatMap_cons, countBatch, foldl_count_candidates,
      List.filterMap_append, List.length_append]
    omega

end Batches
end Tally

theorem Tally.pairwise_solutions (tally : Tally) : tally.report.solutions.Pairwise (· < ·) := by
  refine Std.ExtTreeSet.ordered_toList.imp fun {first second} before => ?_
  exact compareOfLessAndEq_eq_lt.mp before

-- A search with too few free cells is refused before anything is tried; any other one ends with a
-- report on all that has been dealt out.
theorem runWith_eq_ok_iff {deal : Deal} {config : Config} {report : Report} :
    runWith deal config = .ok report ↔
      config.required.length ≤ (freeCells config.cells).length ∧
        report = (tallied deal config).report := by
  unfold runWith check
  by_cases room : config.required.length ≤ (freeCells config.cells).length
  · rw [if_neg (Nat.not_lt.mpr room)]
    constructor
    · rintro ⟨⟩
      exact ⟨room, rfl⟩
    · rintro ⟨_, rfl⟩
      rfl
  · rw [if_pos (Nat.not_le.mp room)]
    constructor
    · rintro ⟨⟩
    · rintro ⟨enough, _⟩
      exact absurd enough room

theorem mem_tallied {deal : Deal} {config : Config} {text : String} :
    text ∈ (tallied deal config).report.solutions ↔
      ∃ program, .tried program true ∈ dealt deal config ∧ text = String.ofList program := by
  rw [Tally.report, Std.ExtTreeSet.mem_toList, tallied, Tally.mem_foldl_countBatch]
  simp [dealt]

theorem run_eq_ok {config : Config}
    (room : config.required.length ≤ (freeCells config.cells).length) (cores : Nat) :
    ∃ report, run cores config = .ok report ∧ report.solutions.Pairwise (· < ·) ∧
      (∀ text, text ∈ report.solutions ↔
        ∃ program, .tried program true ∈ made cores config ∧ text = String.ofList program) ∧
      report.candidates = (attempts cores config).length := by
  refine ⟨_, runWith_eq_ok_iff.mpr ⟨room, rfl⟩, Tally.pairwise_solutions _, fun _ => mem_tallied, ?_⟩
  rw [Tally.report, tallied, Tally.foldl_countBatch_candidates, Nat.zero_add]
  rfl

-- Solutions that are listed as they arrive, in whatever order and however often, come to the list
-- of the report once they are sorted and rid of repetitions.
theorem sortDedup_arrivals {deal : Deal} {config : Config} {report : Report}
    (reported : runWith deal config = .ok report) {arrived : List String}
    (arrives : arrived.Perm ((dealt deal config).filterMap Trial.solution?)) :
    Listing.sortDedup arrived = report.solutions := by
  obtain ⟨_, rfl⟩ := runWith_eq_ok_iff.mp reported
  refine Listing.sortDedup_eq (Tally.pairwise_solutions _) fun text => ?_
  rw [arrives.mem_iff, Trial.mem_solutions, mem_tallied]

theorem room_of_run {cores : Nat} {config : Config} {report : Report}
    (reported : run cores config = .ok report) :
    config.required.length ≤ (freeCells config.cells).length :=
  (runWith_eq_ok_iff.mp reported).1

section Refusals
variable {cores threads : Nat} {config : Config} {refusal : Option String} {reason : String}

theorem runOn_of_built
    (built : ∀ threads, config.threads.resolve cores = .pool threads → refusal = none) :
    runOn cores refusal config = run cores config := by
  have opened : openPool cores refusal config.threads = .ok () := by
    unfold openPool
    split
    · rename_i threads reason pooled
      cases built threads pooled
    · rfl
  unfold runOn
  rw [opened]
  cases checked : check config with
  | error error =>
    unfold run runWith
    rw [checked]
    rfl
  | ok => rfl

theorem runOn_of_refused (room : config.required.length ≤ (freeCells config.cells).length)
    (pooled : config.threads.resolve cores = .pool threads) :
    runOn cores (some reason) config = .error (.threadPool reason) := by
  unfold runOn openPool check
  rw [if_neg (Nat.not_lt.mpr room), pooled]
  rfl

end Refusals

end Hexagony.Search
