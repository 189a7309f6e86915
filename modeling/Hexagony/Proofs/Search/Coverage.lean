import Hexagony.Proofs.Search.Choice
import Hexagony.Proofs.Search.Dispatch
import Hexagony.Proofs.Search.Filling
import Hexagony.Proofs.Search.Tally
import Hexagony.Proofs.Search.Words

namespace Hexagony.Search
open Choice

section Trials
variable {config : Config} {start : Interpreter} {reserved : List Nat} {ordering word : List Char}
  {program : List Char}

def attempt (config : Config) (start : Interpreter) (reserved : List Nat)
    (ordering word : List Char) : Trial :=
  if repeatsRequired (place config.cells reserved ordering) reserved
      (leftFree (freeCells config.cells) reserved) word then .skipped
  else
    .tried (assemble config.cells reserved ordering word)
      (solves config start (assemble config.cells reserved ordering word))

structure Rewritten (cells : List Char) (free : List Nat) (current : List Char) : Prop where
  length : current.length = cells.length
  fixed : ∀ index, index ∉ free → current[index]? = cells[index]?

theorem Rewritten.repeatsRequired_eq {cells current : List Char} {free : List Nat}
    (rewritten : Rewritten cells (leftFree free reserved) current) (word : List Char) :
    repeatsRequired current reserved (leftFree free reserved) word =
      repeatsRequired cells reserved (leftFree free reserved) word := by
  have same (index : Nat) (member : index ∈ reserved) : current[index]? = cells[index]? :=
    rewritten.fixed index fun other => (mem_leftFree.mp other).2 member
  rw [Bool.eq_iff_iff]
  simp only [repeatsRequired, List.any_eq_true]
  refine exists_congr fun _ => and_congr_right fun _ => exists_congr fun index => ?_
  refine and_congr_right fun before => ?_
  rw [same index ((List.takeWhile_sublist _).subset before)]

-- The step: trying a word leaves the cells fit for the next one, and comes to the same as if they
-- had just been laid out.
theorem tryWord_eq {current : List Char} (start : Interpreter) (done : Array Trial)
    (rewritten : Rewritten (place config.cells reserved ordering)
      (leftFree (freeCells config.cells) reserved) current)
    (fills : word.length = (leftFree (freeCells config.cells) reserved).length) :
    ∃ next, tryWord config start reserved (leftFree (freeCells config.cells) reserved)
        (current, done) word = (next, done.push (attempt config start reserved ordering word)) ∧
      Rewritten (place config.cells reserved ordering)
        (leftFree (freeCells config.cells) reserved) next := by
  unfold tryWord attempt
  rw [rewritten.repeatsRequired_eq]
  split
  · exact ⟨current, rfl, rewritten⟩
  · have same : place current (leftFree (freeCells config.cells) reserved) word =
        assemble config.cells reserved ordering word :=
      place_congr fills rewritten.length rewritten.fixed
    refine ⟨assemble config.cells reserved ordering word, by rw [same], ?_, ?_⟩
    · rw [assemble, place_length]
    · intro index elsewhere
      rw [assemble, place_of_not_mem elsewhere]

theorem foldl_tryWord {current : List Char} {words : List (List Char)} (done : Array Trial)
    (rewritten : Rewritten (place config.cells reserved ordering)
      (leftFree (freeCells config.cells) reserved) current)
    (fill : ∀ word ∈ words, word.length = (leftFree (freeCells config.cells) reserved).length) :
    (words.foldl (tryWord config start reserved (leftFree (freeCells config.cells) reserved))
        (current, done)).2.toList =
      done.toList ++ words.map (attempt config start reserved ordering) := by
  induction words generalizing current done with
  | nil => simp
  | cons word words ih =>
    obtain ⟨first, rest⟩ := List.forall_mem_cons.mp fill
    obtain ⟨next, tried, kept⟩ := tryWord_eq start done rewritten first
    rw [List.foldl_cons, tried, ih _ kept rest]
    simp

theorem trials_of_gives {given : List (List Char)}
    (gives : (Words.ofAlphabet config.available
      (leftFree (freeCells config.cells) reserved).length).Gives given) :
    trials config start reserved ordering = given.map (attempt config start reserved ordering) := by
  obtain rfl := gives.unique (Words.gives_all _ _).1
  unfold trials
  dsimp only
  rw [Words.foldl_ofAlphabet, foldl_tryWord #[] ⟨rfl, fun _ _ => rfl⟩]
  · simp
  · intro word listed
    exact (Words.mem_all.mp listed).1

theorem trials_eq (config : Config) (start : Interpreter) (reserved : List Nat)
    (ordering : List Char) :
    trials config start reserved ordering =
      (Words.all config.available (leftFree (freeCells config.cells) reserved).length).map
        (attempt config start reserved ordering) :=
  trials_of_gives (Words.gives_all _ _).1

theorem attempt_program?_eq_some (inside : reserved.Sublist (freeCells config.cells))
    (sized : ordering.length = reserved.length)
    (fills : word.length = (leftFree (freeCells config.cells) reserved).length) :
    (attempt config start reserved ordering word).program? = some program ↔
      (Fits config.cells program ∧
          Late (program.getD · Grid.filler) (freeCells config.cells) reserved ∧
          read program reserved = ordering) ∧
        word = read program (leftFree (freeCells config.cells) reserved) := by
  have skips := repeatsRequired_iff inside sized fills
  have assembles {other : List Char} : assemble config.cells reserved ordering word = other ↔ _ :=
    assemble_eq_iff inside sized fills
  unfold attempt
  split
  · rename_i skipped
    refine ⟨(fun nothing => by cases nothing), ?_⟩
    rintro ⟨⟨fits, late, first⟩, second⟩
    rw [assembles.mpr ⟨fits, first, second.symm⟩, skipped] at skips
    cases skips.mpr late
  · rename_i tried
    have late := skips.mp (by simpa using tried)
    rw [Trial.program?, Option.some.injEq]
    constructor
    · intro same
      obtain ⟨fits, first, second⟩ := assembles.mp same
      rw [same] at late
      exact ⟨⟨fits, late, first⟩, second.symm⟩
    · rintro ⟨⟨fits, _, first⟩, second⟩
      exact assembles.mpr ⟨fits, first, second.symm⟩

theorem count_trials (inside : reserved.Sublist (freeCells config.cells))
    (sized : ordering.length = reserved.length) (start : Interpreter) (program : List Char)
    [Decidable (Fits config.cells program ∧
      Late (program.getD · Grid.filler) (freeCells config.cells) reserved)] :
    ((trials config start reserved ordering).filterMap Trial.program?).count program =
      if ordering = read program reserved then
        if Fits config.cells program ∧
            Late (program.getD · Grid.filler) (freeCells config.cells) reserved then
          (Words.all config.available (leftFree (freeCells config.cells) reserved).length).count
            (read program (leftFree (freeCells config.cells) reserved))
        else 0
      else 0 := by
  rw [trials_eq, List.filterMap_map, List.count_filterMap]
  have comes (word : List Char) (listed : word ∈ Words.all config.available
      (leftFree (freeCells config.cells) reserved).length) :
      ((Trial.program? ∘ attempt config start reserved ordering) word == some program) = true ↔ _ :=
    beq_iff_eq.trans (attempt_program?_eq_some inside sized (Words.mem_all.mp listed).1)
  by_cases first : ordering = read program reserved
  · rw [if_pos first]
    by_cases latest : Fits config.cells program ∧
        Late (program.getD · Grid.filler) (freeCells config.cells) reserved
    · rw [if_pos latest]
      refine List.countP_congr fun word listed => ?_
      rw [comes word listed, beq_iff_eq]
      exact ⟨And.right, fun same => ⟨⟨latest.1, latest.2, first.symm⟩, same⟩⟩
    · rw [if_neg latest]
      refine List.countP_eq_zero.mpr fun word listed found => ?_
      obtain ⟨⟨fits, late, _⟩, _⟩ := (comes word listed).mp found
      exact latest ⟨fits, late⟩
  · rw [if_neg first]
    refine List.countP_eq_zero.mpr fun word listed found => ?_
    obtain ⟨⟨_, _, same⟩, _⟩ := (comes word listed).mp found
    exact first same.symm

theorem count_items (inside : reserved.Sublist (freeCells config.cells))
    (sized : reserved.length = config.required.length) (start : Interpreter)
    (program : List Char)
    [Decidable (Fits config.cells program ∧
      Late (program.getD · Grid.filler) (freeCells config.cells) reserved)] :
    ((items config start reserved).flatten.filterMap Trial.program?).count program =
      (orderings config.required).count (read program reserved) *
        if Fits config.cells program ∧
            Late (program.getD · Grid.filler) (freeCells config.cells) reserved then
          (Words.all config.available (leftFree (freeCells config.cells) reserved).length).count
            (read program (leftFree (freeCells config.cells) reserved))
        else 0 := by
  have fitting (ordering : List Char) (listed : ordering ∈ orderings config.required) :
      ordering.length = reserved.length :=
    (mem_orderings.mp listed).length_eq.trans sized.symm
  have total := sum_matching fun ordering (listed : ordering ∈ orderings config.required) =>
    count_trials inside (fitting ordering listed) start program
  rw [List.map_id'] at total
  rw [← total, items, ← List.flatMap_def, List.filterMap_flatMap, List.count_flatMap]
  rfl

theorem mem_reservations :
    reserved ∈ reservations config ↔
      reserved.Sublist (freeCells config.cells) ∧ reserved.length = config.required.length :=
  mem_subsets

theorem count_items_pos (listed : reserved ∈ reservations config) (start : Interpreter) :
    0 < ((items config start reserved).flatten.filterMap Trial.program?).count program ↔
      Reaches config program reserved := by
  classical
  obtain ⟨inside, sized⟩ := mem_reservations.mp listed
  have length : (read program (leftFree (freeCells config.cells) reserved)).length =
      (leftFree (freeCells config.cells) reserved).length := List.length_map _
  rw [count_items inside sized, Nat.pos_iff_ne_zero, Nat.mul_ne_zero_iff, ← Nat.pos_iff_ne_zero,
    ← Nat.pos_iff_ne_zero, List.count_pos_iff, mem_orderings]
  constructor
  · rintro ⟨holds, found⟩
    by_cases latest : Fits config.cells program ∧
        Late (program.getD · Grid.filler) (freeCells config.cells) reserved
    · rw [if_pos latest, List.count_pos_iff, Words.mem_all] at found
      exact ⟨latest.1, inside, holds, found.2, latest.2⟩
    · rw [if_neg latest] at found
      exact absurd found (Nat.lt_irrefl 0)
  · intro reaches
    refine ⟨reaches.holds, ?_⟩
    rw [if_pos ⟨reaches.fits, reaches.late⟩, List.count_pos_iff, Words.mem_all]
    exact ⟨length, reaches.others⟩

theorem count_items_of_reaches (distinct : config.available.Nodup)
    (reaches : Reaches config program reserved) (start : Interpreter) :
    ((items config start reserved).flatten.filterMap Trial.program?).count program =
      symmetries config.required := by
  classical
  have listed : read program (leftFree (freeCells config.cells) reserved) ∈
      Words.all config.available (leftFree (freeCells config.cells) reserved).length :=
    Words.mem_all.mpr ⟨List.length_map _, reaches.others⟩
  rw [count_items reaches.inside reaches.length_eq, count_orderings, if_pos reaches.holds,
    if_pos ⟨reaches.fits, reaches.late⟩,
    List.count_eq_one_of_mem (Words.nodup_all distinct _) listed, Nat.mul_one]

end Trials

section Attempts
variable {cores : Nat} {config : Config} {program : List Char}

theorem count_attempts :
    (attempts cores config).count program = ((reservations config).map fun reserved =>
      ((items config (base config) reserved).flatten.filterMap Trial.program?).count program).sum := by
  rw [attempts, made, List.filterMap_flatMap, List.count_flatMap]
  refine congrArg List.sum (List.map_congr_left fun reserved _ => ?_)
  exact ((dispatch_perm cores config.threads _).filterMap Trial.program?).count_eq program

theorem mem_attempts : program ∈ attempts cores config ↔ Filling config program := by
  rw [← List.count_pos_iff, count_attempts, filling_iff_reaches, List.sum_pos_iff_exists_pos_nat]
  constructor
  · rintro ⟨_, member, found⟩
    obtain ⟨reserved, listed, rfl⟩ := List.mem_map.mp member
    exact ⟨reserved, (count_items_pos listed _).mp found⟩
  · rintro ⟨reserved, reaches⟩
    have listed : reserved ∈ reservations config :=
      mem_reservations.mpr ⟨reaches.inside, reaches.length_eq⟩
    exact ⟨_, List.mem_map.mpr ⟨reserved, listed, rfl⟩, (count_items_pos listed _).mpr reaches⟩

theorem count_attempts_of_filling (distinct : config.available.Nodup)
    (filling : Filling config program) :
    (attempts cores config).count program = symmetries config.required := by
  obtain ⟨reserved, reaches⟩ := filling_iff_reaches.mp filling
  have once : ∀ other ∈ reservations config,
      ((items config (base config) other).flatten.filterMap Trial.program?).count program =
        if other = reserved then symmetries config.required else 0 := by
    intro other listed
    by_cases same : other = reserved
    · rw [if_pos same, same, count_items_of_reaches distinct reaches]
    · rw [if_neg same]
      by_contra found
      have also := (count_items_pos listed _).mp (Nat.pos_of_ne_zero found)
      exact same (also.eq_latest.trans reaches.eq_latest.symm)
  have listed : reserved ∈ reservations config :=
    mem_reservations.mpr ⟨reaches.inside, reaches.length_eq⟩
  have each : (reservations config).Nodup := nodup_subsets (freeCells_nodup config.cells) _
  have total := sum_matching once
  rw [List.map_id'] at total
  rw [count_attempts, total, List.count_eq_one_of_mem each listed, Nat.one_mul]

end Attempts

open Nat in
-- A search tries exactly the fillings of its template, each as often as equal required characters
-- can change places.
theorem attempts_exact {config : Config}
    (room : config.required.length ≤ (freeCells config.cells).length) (cores : Nat) :
    (∃ report, run cores config = .ok report ∧
      report.candidates = (attempts cores config).length) ∧
    (∀ program, program ∈ attempts cores config ↔ Filling config program) ∧
    (config.available.Nodup → ∀ program, Filling config program →
      (attempts cores config).count program =
        ∏ char ∈ config.required.toFinset, (config.required.count char)!) ∧
    (config.available.Nodup → config.required.Nodup → ∀ program, Filling config program →
      (attempts cores config).count program = 1) := by
  obtain ⟨report, reported, _, _, counted⟩ := run_eq_ok room cores
  refine ⟨⟨report, reported, counted⟩, fun _ => mem_attempts, ?_, ?_⟩
  · intro distinct program filling
    exact count_attempts_of_filling distinct filling
  · intro distinct single program filling
    rw [count_attempts_of_filling distinct filling, symmetries_of_nodup single]

-- The required characters are equal and available too: three reservations with two orderings each
-- lead to this program, and all but one of the reservations are skipped.
theorem attempts_exact_repeated :
    let config : Config :=
      {template := ".. (@.", required := [')', ')'], available := ['+', ')']}
    config.required.length ≤ (freeCells config.cells).length ∧ config.available.Nodup ∧
      Filling config [')', ')', '(', '@', ')'] ∧
      (attempts 2 config).count [')', ')', '(', '@', ')'] = 2 := by
  intro config
  have room : config.required.length ≤ (freeCells config.cells).length := by decide
  have distinct : config.available.Nodup := by decide
  have written : assemble config.cells [0, 1] [')', ')'] [')'] = [')', ')', '(', '@', ')'] := by
    decide
  have filling : Filling config [')', ')', '(', '@', ')'] :=
    filling_of_assemble written (by decide) rfl (by decide) (by decide) (by simp [config])
  obtain ⟨_, _, counts, _⟩ := attempts_exact room 2
  exact ⟨room, distinct, filling, counts distinct _ filling⟩

end Hexagony.Search
