import Hexagony.Proofs.Search.Coverage

namespace Hexagony.Search
open Choice Nat

namespace Tally
variable {tally : Tally} {trials : List Trial}

def total (tally : Tally) : Nat := tally.candidates + tally.skipped

theorem total_count (tally : Tally) (trial : Trial) : (tally.count trial).total = tally.total + 1 := by
  cases trial with
  | skipped => rfl
  | tried program solved =>
    change tally.candidates + 1 + tally.skipped = tally.candidates + tally.skipped + 1
    omega

theorem total_foldl_count : (trials.foldl count tally).total = tally.total + trials.length := by
  induction trials generalizing tally with
  | nil => rfl
  | cons first rest ih =>
    rw [List.foldl_cons, ih, total_count, List.length_cons]
    omega

theorem subsets_count (tally : Tally) (trial : Trial) :
    (tally.count trial).subsets = tally.subsets := by
  cases trial <;> rfl

theorem subsets_foldl_count : (trials.foldl count tally).subsets = tally.subsets := by
  induction trials generalizing tally with
  | nil => rfl
  | cons first rest ih => rw [List.foldl_cons, ih, subsets_count]

theorem subsets_countBatch (tally : Tally) (batch : List Trial) :
    (tally.countBatch batch).subsets = tally.subsets + 1 :=
  congrArg (· + 1) subsets_foldl_count

theorem total_countBatch (tally : Tally) (batch : List Trial) :
    (tally.countBatch batch).total = tally.total + batch.length :=
  total_foldl_count

theorem foldl_countBatch_counts {α : Type} (batches : List α) (batch : α → List Trial)
    (tally : Tally) :
    let counted := batches.foldl (fun tally item => tally.countBatch (batch item)) tally
    counted.subsets = tally.subsets + batches.length ∧
      counted.total = tally.total + (batches.flatMap batch).length := by
  induction batches generalizing tally with
  | nil => exact ⟨rfl, rfl⟩
  | cons first rest ih =>
    obtain ⟨subsets, total⟩ := ih (tally.countBatch (batch first))
    rw [subsets_countBatch] at subsets
    rw [total_countBatch] at total
    constructor
    · rw [List.foldl_cons, subsets, List.length_cons]
      omega
    · rw [List.foldl_cons, total, List.flatMap_cons, List.length_append]
      omega

end Tally

section Space
variable {config : Config} {reserved : List Nat}

theorem length_leftFree {free reserved : List Nat} (distinct : free.Nodup)
    (inside : reserved.Sublist free) :
    (leftFree free reserved).length = free.length - reserved.length := by
  have chosen : (free.filter reserved.contains).Perm reserved := by
    refine (List.perm_ext_iff_of_nodup (distinct.filter _) (inside.nodup distinct)).mpr ?_
    intro slot
    simp only [List.mem_filter, List.contains_iff_mem]
    exact ⟨And.right, fun member => ⟨inside.subset member, member⟩⟩
  have split := List.length_eq_length_filter_add (l := free) reserved.contains
  rw [chosen.length_eq] at split
  unfold leftFree
  omega

theorem length_trials (start : Interpreter) (ordering : List Char)
    (listed : reserved ∈ reservations config) :
    (trials config start reserved ordering).length =
      config.available.length ^
        ((freeCells config.cells).length - config.required.length) := by
  obtain ⟨inside, sized⟩ := mem_reservations.mp listed
  rw [trials_eq, List.length_map, Words.length_all,
    length_leftFree (freeCells_nodup config.cells) inside, sized]
  rfl

theorem length_deal (cores : Nat) (listed : reserved ∈ reservations config) :
    (config.deal cores reserved (items config (base config) reserved)).length =
      config.required.length ! * config.available.length ^
        ((freeCells config.cells).length - config.required.length) := by
  have dealt := (dispatch_perm cores config.threads (items config (base config) reserved)).length_eq
  refine dealt.trans ?_
  rw [items, ← List.flatMap_def,
    length_flatMap_of_forall fun ordering _ => length_trials (base config) ordering listed,
    length_orderings]

theorem length_reservations (config : Config) :
    (reservations config).length =
      (freeCells config.cells).length.choose config.required.length :=
  length_subsets _ _

end Space

section Reports
variable {cores : Nat} {config : Config} {report : Report}

theorem run_counts (reported : run cores config = .ok report) :
    report.subsets = (reservations config).length ∧
      report.candidates + report.skipped = (made cores config).length := by
  obtain ⟨_, rfl⟩ := runWith_eq_ok_iff.mp reported
  have counts := Tally.foldl_countBatch_counts (reservations config)
    (fun reserved => config.deal cores reserved (items config (base config) reserved)) {}
  simpa [tallied, Tally.total, Tally.report, made] using counts

-- A search that ends counts every choice of reserved cells, and every filling of every choice as a
-- candidate or as skipped. A word of 128 bits holds the number of choices, unless a product on the
-- way is too large, which takes more than a word of work.
theorem counters_account (reported : run cores config = .ok report) :
    let free := (freeCells config.cells).length
    let required := config.required.length
    let available := config.available.length
    report.subsets = free.choose required ∧ binomial free required = free.choose required ∧
      ((∀ round < required, rounds free round * (free - round) < 2 ^ 128) →
        (wordRounds free required).toNat = free.choose required) ∧
      (free.choose required * required ! < 2 ^ 64 →
        ∀ round < required, rounds free round * (free - round) < 2 ^ 128) ∧
      report.candidates + report.skipped =
        free.choose required * required ! * available ^ (free - required) := by
  intro free required available
  obtain ⟨subsets, total⟩ := run_counts reported
  have room := room_of_run reported
  refine ⟨subsets.trans (length_reservations config), binomial_eq_choose free required, ?_,
    products_fit room, ?_⟩
  · intro fits
    rw [toNat_wordRounds room fits, rounds_eq_choose]
  · have each (reserved : List Nat) (listed : reserved ∈ reservations config) :=
      length_deal cores listed
    rw [total, made, length_flatMap_of_forall each, length_reservations, Nat.mul_assoc]

-- Two equal characters are required, of which one is available too.
theorem counters_account_repeated :
    let config : Config :=
      {template := ".. (@.", required := [')', ')'], available := ['+', ')']}
    ∃ report, run 2 config = .ok report ∧ report.subsets = 3 ∧ binomial 3 2 = 3 ∧
      (wordRounds 3 2).toNat = 3 ∧ report.candidates + report.skipped = 12 := by
  intro config
  have free : (freeCells config.cells).length = 3 := by decide
  have room : config.required.length ≤ (freeCells config.cells).length := by decide
  obtain ⟨report, reported, _⟩ := run_eq_ok room 2
  obtain ⟨subsets, products, word, fit, total⟩ := counters_account reported
  rw [free] at subsets products word fit total
  exact ⟨report, reported, subsets, products, word (fit (by decide)), total⟩

end Reports
end Hexagony.Search
