import Hexagony.Proofs.Search.Coverage
import Hexagony.Proofs.Search.Fork
import Hexagony.Proofs.Search.Stages

namespace Hexagony.Search

section Verdicts
variable {cores : Nat} {config : Config} {program : List Char}

theorem solved_of_mem_made {solved : Bool} (listed : .tried program solved ∈ made cores config) :
    solved = solves config (base config) program := by
  obtain ⟨reserved, _, dealt⟩ := List.mem_flatMap.mp listed
  obtain ⟨item, ordered, inside⟩ :=
    List.mem_flatten.mp ((dispatch_perm cores config.threads _).mem_iff.mp dealt)
  obtain ⟨ordering, _, rfl⟩ := List.mem_map.mp ordered
  rw [trials_eq] at inside
  obtain ⟨word, _, same⟩ := List.mem_map.mp inside
  unfold attempt at same
  split at same
  · cases same
  · cases same
    rfl

theorem mem_made_iff :
    .tried program true ∈ made cores config ↔
      Filling config program ∧ solves config (base config) program = true := by
  constructor
  · intro listed
    have tried : program ∈ attempts cores config := List.mem_filterMap.mpr ⟨_, listed, rfl⟩
    exact ⟨mem_attempts.mp tried, (solved_of_mem_made listed).symm⟩
  · rintro ⟨filling, solved⟩
    have tried : program ∈ attempts cores config := mem_attempts.mpr filling
    obtain ⟨trial, listed, same⟩ := List.mem_filterMap.mp tried
    cases trial with
    | skipped => cases same
    | tried other verdict =>
      cases same
      rw [← solved, ← solved_of_mem_made listed]
      exact listed

theorem run_solutions (room : config.required.length ≤ (freeCells config.cells).length)
    (cores : Nat) :
    ∃ report, run cores config = .ok report ∧ report.solutions.Pairwise (· < ·) ∧
      ∀ text, text ∈ report.solutions ↔
        Filling config text.toList ∧ solves config (base config) text.toList = true := by
  obtain ⟨report, reported, sorted, found, _⟩ := run_eq_ok room cores
  refine ⟨report, reported, sorted, fun text => ?_⟩
  rw [found]
  constructor
  · rintro ⟨program, listed, rfl⟩
    rw [String.toList_ofList]
    exact mem_made_iff.mp listed
  · intro solution
    exact ⟨text.toList, mem_made_iff.mpr solution, String.ofList_toList.symm⟩

theorem reported_of_solves {text : String} (filling : Filling config text.toList)
    (solved : solves config (base config) text.toList = true) (cores : Nat) :
    ∃ report, run cores config = .ok report ∧ text ∈ report.solutions := by
  obtain ⟨report, reported, _, found⟩ := run_solutions filling.room cores
  exact ⟨report, reported, (found text).mpr ⟨filling, solved⟩⟩

theorem Filling.clean (filling : Filling config program)
    (clean : ∀ char ∈ config.required ++ config.available, Grid.isIgnored char = false) :
    ∀ char ∈ program, Grid.isIgnored char = false := by
  intro char member
  obtain ⟨index, found⟩ := List.mem_iff_getElem?.mp member
  have here : program.getD index Grid.filler = char := by
    rw [List.getD_eq_getElem?_getD, found, Option.getD_some]
  by_cases free : index ∈ freeCells config.cells
  · obtain ⟨reserved, _, holds, others⟩ := filling.filled
    refine clean char (List.mem_append.mpr ?_)
    by_cases chosen : index ∈ reserved
    · exact .inl (holds.mem_iff.mp (List.mem_map.mpr ⟨index, chosen, here⟩))
    · exact .inr (others char
        (List.mem_map.mpr ⟨index, mem_leftFree.mpr ⟨free, chosen⟩, here⟩))
  · rw [filling.fixed index free] at found
    exact Grid.strip_clean config.template char (List.mem_of_getElem? found)

theorem opcode_fork {state : Interpreter} (fits : Fits config.cells program)
    (passed : state ∈ Clocked.runPath (baseStart config))
    (apart : ∀ index ∈ freeCells config.cells,
      state.grid.indexOf? state.pointer.point ≠ some index) :
    (state.fork program).opcode = state.opcode := by
  have kept : state.grid = _ := (Interpreter.path_grid passed).trans (baseStart_grid config)
  have same : (state.grid.refill program).get state.pointer.point =
      state.grid.get state.pointer.point := by
    rw [kept] at apart ⊢
    rw [Grid.refill_refill _ fits.length.symm]
    refine Grid.get_refill_congr _ fits.length fun index found => ?_
    rw [← Grid.indexOf?_refill _ config.cells] at found
    exact fits.fixed index fun free => apart index free found
  exact congrArg Opcode.decode same

end Verdicts

theorem solutions_exact {config : Config}
    (room : config.required.length ≤ (freeCells config.cells).length)
    (clean : ∀ char ∈ config.required ++ config.available, Grid.isIgnored char = false)
    (undisturbed : ∀ state ∈ Clocked.runPath (baseStart config),
      ∀ index ∈ freeCells config.cells, state.grid.indexOf? state.pointer.point ≠ some index)
    (cores : Nat) :
    ∃ report, run cores config = .ok report ∧ report.solutions.Pairwise (· < ·) ∧
      ∀ text, text ∈ report.solutions ↔
        Filling config text.toList ∧
        ((fresh config text).setBudget (some (max config.prefixTicks
          (max config.probeTicks config.maxTicks)))).run.Succeeded ∧
        1 ≤ ((fresh config text).setBudget (some (max config.prefixTicks
          config.probeTicks))).run.machine.output.length := by
  obtain ⟨report, reported, sorted, found⟩ := run_solutions room cores
  refine ⟨report, reported, sorted, fun text => ?_⟩
  rw [found]
  refine and_congr_right fun filling => ?_
  have reached := fork_base filling.length (filling.clean clean) fun state passed =>
    opcode_fork filling.toFits passed (undisturbed state passed)
  rw [String.ofList_toList] at reached
  exact solves_iff_of_begun reached

-- One shared tick, on a cell that is not free.
theorem solutions_exact_shared :
    let config : Config :=
      {template := ").!@", target := "2", available := [')', '('], prefixTicks := 1}
    config.required.length ≤ (freeCells config.cells).length ∧
      (∀ char ∈ config.required ++ config.available, Grid.isIgnored char = false) ∧
      (∀ state ∈ Clocked.runPath (baseStart config), ∀ index ∈ freeCells config.cells,
        state.grid.indexOf? state.pointer.point ≠ some index) ∧
      ∃ report, run 2 config = .ok report ∧
        "))!@" ∈ report.solutions ∧ ")(!@" ∉ report.solutions := by
  intro config
  have room : config.required.length ≤ (freeCells config.cells).length := by decide
  have clean : ∀ char ∈ config.required ++ config.available, Grid.isIgnored char = false := by
    simp [config, Grid.isIgnored, Grid.ignored]
  have undisturbed : ∀ state ∈ Clocked.runPath (baseStart config),
      ∀ index ∈ freeCells config.cells,
        state.grid.indexOf? state.pointer.point ≠ some index := by decide +kernel
  have written : assemble config.cells [] [] [')'] = "))!@".toList := by decide
  have filling : Filling config "))!@".toList :=
    filling_of_assemble written (by decide) rfl (by decide) (by decide) (by simp [config])
  obtain ⟨report, reported, _, found⟩ := solutions_exact room clean undisturbed 2
  refine ⟨room, clean, undisturbed, report, reported, (found _).mpr ⟨filling, ?_, ?_⟩, ?_⟩
  · decide +kernel
  · decide +kernel
  · intro listed
    exact absurd ((found _).mp listed).2.1 (by decide +kernel)

-- Reported programs that fail by themselves: one was shared a tick on a cell that is then filled,
-- the other has a character that takes no cell in a text.
theorem reported_fails_alone :
    (let config : Config :=
      {template := ".!@", target := "0", available := [')'], prefixTicks := 1}
    ∃ report, run 1 config = .ok report ∧ ")!@" ∈ report.solutions ∧
      ∀ n, ¬(Interpreter.step^[n] (fresh config ")!@")).Succeeded) ∧
    (let config : Config :=
      {template := ".!@", target := "32", available := [' '], prefixTicks := 0}
    ∃ report, run 1 config = .ok report ∧ " !@" ∈ report.solutions ∧
      ∀ n, ¬(Interpreter.step^[n] (fresh config " !@")).Succeeded) := by
  constructor
  · intro config
    have written : assemble config.cells [] [] [')'] = ")!@".toList := by decide
    have filling : Filling config ")!@".toList :=
      filling_of_assemble written (by decide) rfl (by decide) (by decide) (by simp [config])
    have ceased : (Interpreter.step^[2] (fresh config ")!@")).clock.halted = true := by
      decide +kernel
    have failed : (Interpreter.step^[2] (fresh config ")!@")).machine.output.success = false := by
      decide +kernel
    obtain ⟨report, reported, listed⟩ := reported_of_solves filling (by decide +kernel) 1
    exact ⟨report, reported, listed, Interpreter.never_succeeds ceased failed⟩
  · intro config
    have written : assemble config.cells [] [] [' '] = " !@".toList := by decide
    have filling : Filling config " !@".toList :=
      filling_of_assemble written (by decide) rfl (by decide) (by decide) (by simp [config])
    have ceased : (Interpreter.step^[1] (fresh config " !@")).clock.halted = true := by
      decide +kernel
    have failed : (Interpreter.step^[1] (fresh config " !@")).machine.output.success = false := by
      decide +kernel
    obtain ⟨report, reported, listed⟩ := reported_of_solves filling (by decide +kernel) 1
    exact ⟨report, reported, listed, Interpreter.never_succeeds ceased failed⟩

theorem solutions_sound {cores : Nat} {config : Config} {report : Report}
    (reported : run cores config = .ok report) {text : String} (listed : text ∈ report.solutions) :
    (∃ n, (Interpreter.step^[n] (((base config).fork text.toList).setBudget none)).Succeeded) ∧
    ((∀ char ∈ text.toList, Grid.isIgnored char = false) →
      (∀ state ∈ Clocked.runPath (baseStart config),
        (state.fork text.toList).opcode = state.opcode) →
      ∃ n, (Interpreter.step^[n] (fresh config text)).Succeeded) := by
  obtain ⟨_, again, _, found⟩ := run_solutions (room_of_run reported) cores
  cases reported.symm.trans again
  obtain ⟨filling, solved⟩ := (found text).mp listed
  constructor
  · exact Interpreter.succeeds_unlimited ((solves_iff (base config)).mp solved).1
  · intro clean agrees
    have reached := fork_base filling.length clean agrees
    rw [String.ofList_toList] at reached
    have succeeded := ((solves_iff_of_begun reached).mp solved).1
    exact Interpreter.succeeds_unlimited succeeded

theorem solutions_sound_shared :
    let config : Config :=
      {template := ")....!@", target := "2", required := [')'], available := ['.'],
       prefixTicks := 1}
    ∃ report, run 2 config = .ok report ∧ ")..).!@" ∈ report.solutions ∧
      (∃ n, (Interpreter.step^[n]
        (((base config).fork ")..).!@".toList).setBudget none)).Succeeded) ∧
      ∃ n, (Interpreter.step^[n] (fresh config ")..).!@")).Succeeded := by
  intro config
  have written : assemble config.cells [3] [')'] ['.', '.', '.'] = ")..).!@".toList := by decide
  have filling : Filling config ")..).!@".toList :=
    filling_of_assemble written (by decide) rfl (by decide) (by decide) (by simp [config])
  obtain ⟨report, reported, listed⟩ := reported_of_solves filling (by decide +kernel) 2
  obtain ⟨resumed, alone⟩ := solutions_sound reported listed
  have clean : ∀ char ∈ ")..).!@".toList, Grid.isIgnored char = false := by
    simp [Grid.isIgnored, Grid.ignored]
  exact ⟨report, reported, listed, resumed, alone clean (by decide +kernel)⟩

end Hexagony.Search
