import Mathlib.Data.List.Nodup
import Mathlib.Data.List.Perm.Subperm
import Mathlib.Tactic.Common
import Hexagony.Search.Trial

namespace Hexagony.Search

section Latest
variable {f : Nat → Char} {required available : List Char} {free reserved : List Nat}

def laterSame (f : Nat → Char) (free : List Nat) (slot : Nat) : List Nat :=
  free.filter fun other => slot < other && f other == f slot

def holding (f : Nat → Char) (free : List Nat) (char : Char) : List Nat :=
  free.filter (f · == char)

-- The last cells that hold each required character, as many as are required.
def latest (f : Nat → Char) (required : List Char) (free : List Nat) : List Nat :=
  free.filter fun slot => (laterSame f free slot).length < required.count (f slot)

def Late (f : Nat → Char) (free reserved : List Nat) : Prop :=
  ∀ slot ∈ free, slot ∉ reserved → ∀ index ∈ reserved, index < slot → f index ≠ f slot

theorem mem_laterSame {slot other : Nat} :
    other ∈ laterSame f free slot ↔ other ∈ free ∧ slot < other ∧ f other = f slot := by
  simp [laterSame]

theorem mem_holding {char : Char} {slot : Nat} :
    slot ∈ holding f free char ↔ slot ∈ free ∧ f slot = char := by
  simp [holding]

theorem mem_latest {slot : Nat} :
    slot ∈ latest f required free ↔
      slot ∈ free ∧ (laterSame f free slot).length < required.count (f slot) := by
  simp [latest]

theorem holding_length (char : Char) : (holding f free char).length = (free.map f).count char := by
  rw [holding, ← List.countP_eq_length_filter, List.count, List.countP_map]
  rfl

theorem laterSame_eq {char : Char} {slot : Nat} (same : f slot = char) :
    laterSame f free slot = (holding f free char).filter (slot < ·) := by
  rw [holding, List.filter_filter, laterSame, same]

theorem nodup_laterSame (distinct : free.Nodup) (slot : Nat) :
    (slot :: laterSame f free slot).Nodup := by
  refine List.nodup_cons.mpr ⟨?_, distinct.filter _⟩
  intro self
  have after := (mem_laterSame.mp self).2.1
  omega

theorem length_le_of_subset {some others : List Nat} (distinct : some.Nodup)
    (inside : ∀ slot ∈ some, slot ∈ others) : some.length ≤ others.length :=
  (distinct.subperm inside).length_le

theorem sublist_eq {first second : List Nat} (sorted : free.Pairwise (· < ·))
    (left : first.Sublist free) (right : second.Sublist free)
    (same : ∀ slot ∈ free, slot ∈ first ↔ slot ∈ second) : first = second := by
  have distinct : free.Nodup := sorted.imp Nat.ne_of_lt
  refine List.Perm.eq_of_pairwise ?_ (sorted.sublist left) (sorted.sublist right) ?_
  · intro a b _ _ less more
    omega
  · refine (List.perm_ext_iff_of_nodup (distinct.sublist left) (distinct.sublist right)).mpr ?_
    intro slot
    exact ⟨fun member => (same slot (left.subset member)).mp member,
      fun member => (same slot (right.subset member)).mpr member⟩

theorem late_unique (sorted : free.Pairwise (· < ·)) (inside : reserved.Sublist free)
    (holds : (reserved.map f).Perm required) (late : Late f free reserved) :
    reserved = latest f required free := by
  have distinct : free.Nodup := sorted.imp Nat.ne_of_lt
  have kept := distinct.sublist inside
  refine sublist_eq sorted inside List.filter_sublist fun slot member => ?_
  have many : required.count (f slot) = (holding f reserved (f slot)).length := by
    rw [holding_length, holds.count_eq]
  rw [mem_latest, many]
  constructor
  · -- All later cells with the same character are reserved too, and this one besides.
    intro chosen
    refine ⟨member, ?_⟩
    have more : (slot :: laterSame f free slot).length ≤ (holding f reserved (f slot)).length := by
      refine length_le_of_subset (nodup_laterSame distinct slot) ?_
      intro other listed
      rcases List.mem_cons.mp listed with rfl | later
      · exact mem_holding.mpr ⟨chosen, rfl⟩
      · obtain ⟨present, after, same⟩ := mem_laterSame.mp later
        refine mem_holding.mpr ⟨?_, same⟩
        by_contra missing
        exact late other present missing slot chosen after same.symm
    exact more
  · -- Otherwise all reserved cells with the same character are later.
    rintro ⟨_, few⟩
    by_contra missing
    have enough : (holding f reserved (f slot)).length ≤ (laterSame f free slot).length := by
      refine length_le_of_subset (kept.filter _) ?_
      intro other listed
      obtain ⟨chosen, same⟩ := mem_holding.mp listed
      refine mem_laterSame.mpr ⟨inside.subset chosen, ?_, same⟩
      have before : ¬other < slot := fun before => late slot member missing other chosen before same
      have apart : other ≠ slot := fun same => missing (same ▸ chosen)
      omega
    omega

theorem last_length {slots : List Nat} (sorted : slots.Pairwise (· < ·)) (count : Nat) :
    (slots.filter fun slot => (slots.filter (slot < ·)).length < count).length =
      min count slots.length := by
  induction slots with
  | nil => simp
  | cons first rest ih =>
    obtain ⟨before, others⟩ := List.pairwise_cons.mp sorted
    have all : (first :: rest).filter (first < ·) = rest := by
      rw [List.filter_cons_of_neg (by simp)]
      exact List.filter_eq_self.mpr fun slot member => by simpa using before slot member
    have same : rest.countP (fun slot => ((first :: rest).filter (slot < ·)).length < count) =
        rest.countP (fun slot => (rest.filter (slot < ·)).length < count) := by
      refine List.countP_congr fun slot member => ?_
      have after := before slot member
      rw [List.filter_cons_of_neg (by simpa using Nat.le_of_lt after)]
    have inner := ih others
    rw [← List.countP_eq_length_filter] at inner ⊢
    rw [List.countP_cons, same, inner, all, List.length_cons]
    by_cases few : rest.length < count
    · simp only [few, decide_true, if_true]
      omega
    · simp only [few, decide_false, Bool.false_eq_true, if_false]
      omega

theorem latest_holds (sorted : free.Pairwise (· < ·)) (inside : reserved.Sublist free)
    (holds : (reserved.map f).Perm required) :
    ((latest f required free).map f).Perm required := by
  rw [List.perm_iff_count]
  intro char
  have room : required.count char ≤ (holding f free char).length := by
    rw [← holds.count_eq, holding_length]
    exact (inside.map f).count_le char
  have among : holding f (latest f required free) char =
      (holding f free char).filter fun slot =>
        ((holding f free char).filter (slot < ·)).length < required.count char := by
    rw [latest, holding, List.filter_filter]
    conv_rhs => rw [holding, List.filter_filter]
    refine List.filter_congr fun slot _ => ?_
    by_cases same : f slot = char
    · rw [laterSame_eq same, same, Bool.and_comm]
      rfl
    · rw [beq_eq_false_iff_ne.mpr same, Bool.false_and, Bool.and_false]
  have kept := last_length (sorted.filter (f · == char)) (required.count char)
  rw [← holding_length, among]
  exact kept.trans (Nat.min_eq_left room)

theorem latest_available (distinct : free.Nodup)
    (holds : (reserved.map f).Perm required)
    (others : ∀ slot ∈ free, slot ∉ reserved → f slot ∈ available) :
    ∀ slot ∈ free, slot ∉ latest f required free → f slot ∈ available := by
  intro slot member passed
  by_contra unavailable
  -- Then every cell with this character is reserved, and they are not enough to pass this one.
  have all : (slot :: laterSame f free slot).length ≤ (holding f reserved (f slot)).length := by
    refine length_le_of_subset (nodup_laterSame distinct slot) ?_
    intro other listed
    have present : other ∈ free ∧ f other = f slot := by
      rcases List.mem_cons.mp listed with rfl | later
      · exact ⟨member, rfl⟩
      · exact ⟨(mem_laterSame.mp later).1, (mem_laterSame.mp later).2.2⟩
    refine mem_holding.mpr ⟨?_, present.2⟩
    by_contra missing
    exact unavailable (present.2 ▸ others other present.1 missing)
  refine passed (mem_latest.mpr ⟨member, ?_⟩)
  rw [← holds.count_eq, ← holding_length]
  exact all

theorem latest_late (distinct : free.Nodup) : Late f free (latest f required free) := by
  intro slot member passed index chosen before same
  have few := (mem_latest.mp chosen).2
  have more : (slot :: laterSame f free slot).length ≤ (laterSame f free index).length := by
    refine length_le_of_subset (nodup_laterSame distinct slot) ?_
    intro other listed
    rcases List.mem_cons.mp listed with rfl | later
    · exact mem_laterSame.mpr ⟨member, before, same.symm⟩
    · obtain ⟨present, after, alike⟩ := mem_laterSame.mp later
      exact mem_laterSame.mpr ⟨present, by omega, alike.trans same.symm⟩
  refine passed (mem_latest.mpr ⟨member, ?_⟩)
  rw [List.length_cons] at more
  rw [← same]
  omega

end Latest

section Cells
variable {cells program : List Char} {slots : List Nat}

theorem mem_freeCells {index : Nat} :
    index ∈ freeCells cells ↔ cells[index]? = some Grid.filler := by
  simp only [freeCells, List.mem_map, List.mem_filter, Prod.exists, List.mk_mem_zipIdx_iff_getElem?]
  constructor
  · rintro ⟨char, place, ⟨found, free⟩, rfl⟩
    rw [found, beq_iff_eq.mp free]
  · intro found
    exact ⟨Grid.filler, index, ⟨found, rfl⟩, rfl⟩

theorem freeCells_sorted (cells : List Char) : (freeCells cells).Pairwise (· < ·) := by
  have inside : (freeCells cells).Sublist (cells.zipIdx.map Prod.snd) :=
    List.filter_sublist.map Prod.snd
  refine List.Pairwise.sublist inside ?_
  rw [List.zipIdx_map_snd]
  exact List.pairwise_lt_range'

theorem freeCells_lt {index : Nat} (free : index ∈ freeCells cells) : index < cells.length :=
  (List.getElem?_eq_some_iff.mp (mem_freeCells.mp free)).1

theorem mem_leftFree {free reserved : List Nat} {slot : Nat} :
    slot ∈ leftFree free reserved ↔ slot ∈ free ∧ slot ∉ reserved := by
  simp [leftFree]

def read (program : List Char) (slots : List Nat) : List Char :=
  slots.map (program.getD · Grid.filler)

theorem read_eq_iff {other : List Char} :
    read program slots = read other slots ↔
      ∀ slot ∈ slots, program.getD slot Grid.filler = other.getD slot Grid.filler :=
  List.map_inj_left

theorem place_length (cells : List Char) (slots : List Nat) (chars : List Char) :
    (place cells slots chars).length = cells.length := by
  unfold place
  induction slots.zip chars generalizing cells with
  | nil => rfl
  | cons first rest ih => rw [List.foldl_cons, ih, List.length_set]

theorem place_of_not_mem {index : Nat} (elsewhere : index ∉ slots) (cells chars : List Char) :
    (place cells slots chars)[index]? = cells[index]? := by
  induction slots generalizing cells chars with
  | nil => rfl
  | cons slot rest ih =>
    obtain ⟨apart, others⟩ := not_or.mp (List.mem_cons.not.mp elsewhere)
    cases chars with
    | nil => rfl
    | cons char chars =>
      change (place (cells.set slot char) rest chars)[index]? = _
      rw [ih others, List.getElem?_set_ne (Ne.symm apart)]

-- What the cells to be written hold beforehand is of no account.
theorem place_congr {first second chars : List Char} (sized : chars.length = slots.length)
    (lengths : first.length = second.length)
    (agree : ∀ index, index ∉ slots → first[index]? = second[index]?) :
    place first slots chars = place second slots chars := by
  induction slots generalizing first second chars with
  | nil => exact List.ext_getElem? fun index => agree index List.not_mem_nil
  | cons slot rest ih =>
    cases chars with
    | nil => cases sized
    | cons char chars =>
      change place (first.set slot char) rest chars = place (second.set slot char) rest chars
      refine ih (by simpa using sized) (by simpa using lengths) ?_
      intro index elsewhere
      rw [List.getElem?_set, List.getElem?_set, lengths]
      by_cases here : slot = index
      · simp [here]
      · rw [if_neg here, if_neg here]
        exact agree index (by simp [Ne.symm here, elsewhere])

theorem read_place {chars : List Char} (distinct : slots.Nodup)
    (inside : ∀ slot ∈ slots, slot < cells.length) (sized : chars.length = slots.length) :
    read (place cells slots chars) slots = chars := by
  induction slots generalizing cells chars with
  | nil => exact (List.length_eq_zero_iff.mp sized).symm
  | cons slot rest ih =>
    obtain ⟨fresh, others⟩ := List.nodup_cons.mp distinct
    cases chars with
    | nil => cases sized
    | cons char chars =>
      change read (place (cells.set slot char) rest chars) (slot :: rest) = _
      have here : (place (cells.set slot char) rest chars)[slot]? = some char := by
        rw [place_of_not_mem fresh, List.getElem?_set_self (inside slot List.mem_cons_self)]
      have there : read (place (cells.set slot char) rest chars) rest = chars := by
        refine ih others ?_ (by simpa using sized)
        intro other member
        rw [List.length_set]
        exact inside other (List.mem_cons_of_mem _ member)
      rw [read, List.map_cons, List.getD_eq_getElem?_getD, here]
      exact congrArg _ there

structure Fits (cells program : List Char) : Prop where
  length : program.length = cells.length
  fixed : ∀ index, index ∉ freeCells cells → program[index]? = cells[index]?

theorem fits_ext {other : List Char} (fits : Fits cells program) (also : Fits cells other)
    (same : ∀ slot ∈ freeCells cells,
      program.getD slot Grid.filler = other.getD slot Grid.filler) : program = other := by
  refine List.ext_getElem? fun index => ?_
  by_cases free : index ∈ freeCells cells
  · have here := same index free
    have bound := freeCells_lt free
    have left : index < program.length := by rw [fits.length]; exact bound
    have right : index < other.length := by rw [also.length]; exact bound
    rw [List.getD_eq_getElem?_getD, List.getD_eq_getElem?_getD, List.getElem?_eq_getElem left,
      List.getElem?_eq_getElem right, Option.getD_some, Option.getD_some] at here
    rw [List.getElem?_eq_getElem left, List.getElem?_eq_getElem right, here]
  · rw [fits.fixed index free, also.fixed index free]

end Cells

section Placement
variable {cells program ordering word : List Char} {reserved : List Nat}

def assemble (cells : List Char) (reserved : List Nat) (ordering word : List Char) : List Char :=
  place (place cells reserved ordering) (leftFree (freeCells cells) reserved) word

theorem freeCells_nodup (cells : List Char) : (freeCells cells).Nodup :=
  (freeCells_sorted cells).imp Nat.ne_of_lt

theorem assemble_fits (inside : reserved.Sublist (freeCells cells)) :
    Fits cells (assemble cells reserved ordering word) where
  length := by rw [assemble, place_length, place_length]
  fixed := by
    intro index elsewhere
    have unreserved : index ∉ reserved := fun member => elsewhere (inside.subset member)
    have other : index ∉ leftFree (freeCells cells) reserved := fun member =>
      elsewhere (mem_leftFree.mp member).1
    rw [assemble, place_of_not_mem other, place_of_not_mem unreserved]

theorem read_assemble (inside : reserved.Sublist (freeCells cells))
    (sized : ordering.length = reserved.length)
    (fills : word.length = (leftFree (freeCells cells) reserved).length) :
    read (assemble cells reserved ordering word) reserved = ordering ∧
      read (assemble cells reserved ordering word) (leftFree (freeCells cells) reserved) = word := by
  have distinct := freeCells_nodup cells
  constructor
  · have written : read (place cells reserved ordering) reserved = ordering :=
      read_place (distinct.sublist inside) (fun slot member => freeCells_lt (inside.subset member))
        sized
    have kept : read (assemble cells reserved ordering word) reserved =
        read (place cells reserved ordering) reserved := by
      refine read_eq_iff.mpr fun slot member => ?_
      have apart : slot ∉ leftFree (freeCells cells) reserved := fun other =>
        (mem_leftFree.mp other).2 member
      rw [List.getD_eq_getElem?_getD, List.getD_eq_getElem?_getD, assemble, place_of_not_mem apart]
    exact kept.trans written
  · refine read_place (distinct.filter _) (fun slot member => ?_) fills
    rw [place_length]
    exact freeCells_lt (mem_leftFree.mp member).1

theorem assemble_eq_iff (inside : reserved.Sublist (freeCells cells))
    (sized : ordering.length = reserved.length)
    (fills : word.length = (leftFree (freeCells cells) reserved).length) :
    assemble cells reserved ordering word = program ↔
      Fits cells program ∧ read program reserved = ordering ∧
        read program (leftFree (freeCells cells) reserved) = word := by
  have reads := read_assemble inside sized fills
  constructor
  · rintro rfl
    exact ⟨assemble_fits inside, reads⟩
  · rintro ⟨fits, first, second⟩
    refine fits_ext (assemble_fits inside) fits fun slot free => ?_
    by_cases chosen : slot ∈ reserved
    · exact read_eq_iff.mp (reads.1.trans first.symm) slot chosen
    · exact read_eq_iff.mp (reads.2.trans second.symm) slot (mem_leftFree.mpr ⟨free, chosen⟩)

theorem mem_takeWhile_le {slots : List Nat} (sorted : slots.Pairwise (· < ·)) {index bound : Nat} :
    index ∈ slots.takeWhile (· ≤ bound) ↔ index ∈ slots ∧ index ≤ bound := by
  induction slots with
  | nil => simp
  | cons first rest ih =>
    obtain ⟨before, others⟩ := List.pairwise_cons.mp sorted
    by_cases early : first ≤ bound
    · rw [List.takeWhile_cons_of_pos (by simpa using early), List.mem_cons, ih others, List.mem_cons]
      constructor
      · rintro (rfl | ⟨member, below⟩)
        · exact ⟨.inl rfl, early⟩
        · exact ⟨.inr member, below⟩
      · rintro ⟨rfl | member, below⟩
        · exact .inl rfl
        · exact .inr ⟨member, below⟩
    · rw [List.takeWhile_cons_of_neg (by simpa using early)]
      refine ⟨fun none => (List.not_mem_nil none).elim, ?_⟩
      rintro ⟨member, below⟩
      rcases List.mem_cons.mp member with rfl | later
      · exact absurd below early
      · have after := before index later
        omega

theorem repeatsRequired_iff (inside : reserved.Sublist (freeCells cells))
    (sized : ordering.length = reserved.length)
    (fills : word.length = (leftFree (freeCells cells) reserved).length) :
    repeatsRequired (place cells reserved ordering) reserved
        (leftFree (freeCells cells) reserved) word = false ↔
      Late ((assemble cells reserved ordering word).getD · Grid.filler) (freeCells cells)
        reserved := by
  have reads := (read_assemble inside sized fills).2
  have fits : Fits cells (assemble cells reserved ordering word) := assemble_fits inside
  have held : ∀ index ∈ reserved, (place cells reserved ordering)[index]? =
      some ((assemble cells reserved ordering word).getD index Grid.filler) := by
    intro index member
    have apart : index ∉ leftFree (freeCells cells) reserved := fun other =>
      (mem_leftFree.mp other).2 member
    have bound : index < (assemble cells reserved ordering word).length := by
      rw [fits.length]
      exact freeCells_lt (inside.subset member)
    have same : (assemble cells reserved ordering word)[index]? = _ :=
      place_of_not_mem apart (place cells reserved ordering) word
    rw [← same, List.getD_eq_getElem?_getD, List.getElem?_eq_getElem bound, Option.getD_some]
  generalize assemble cells reserved ordering word = program at reads fits held ⊢
  have sorted := (freeCells_sorted cells).sublist inside
  rw [← reads, read, repeatsRequired, ← List.map_prod_left_eq_zip, List.any_map,
    List.any_eq_false]
  constructor
  · intro none slot free unreserved index chosen before same
    refine none slot (mem_leftFree.mpr ⟨free, unreserved⟩) ?_
    refine List.any_eq_true.mpr ⟨index, ?_, ?_⟩
    · exact (mem_takeWhile_le sorted).mpr ⟨chosen, Nat.le_of_lt before⟩
    · rw [held index chosen]
      simpa using same
  · intro late slot left repeats
    obtain ⟨free, unreserved⟩ := mem_leftFree.mp left
    obtain ⟨index, taken, same⟩ := List.any_eq_true.mp repeats
    obtain ⟨chosen, below⟩ := (mem_takeWhile_le sorted).mp taken
    have apart : index ≠ slot := fun same => unreserved (same ▸ chosen)
    rw [held index chosen] at same
    exact late slot free unreserved index chosen (by omega) (by simpa using same)

end Placement

structure Filling (config : Config) (program : List Char) : Prop
    extends Fits config.cells program where
  filled : ∃ reserved, reserved.Sublist (freeCells config.cells) ∧
    (read program reserved).Perm config.required ∧
    ∀ char ∈ read program (leftFree (freeCells config.cells) reserved), char ∈ config.available

structure Reaches (config : Config) (program : List Char) (reserved : List Nat) : Prop where
  fits : Fits config.cells program
  inside : reserved.Sublist (freeCells config.cells)
  holds : (read program reserved).Perm config.required
  others : ∀ char ∈ read program (leftFree (freeCells config.cells) reserved),
    char ∈ config.available
  late : Late (program.getD · Grid.filler) (freeCells config.cells) reserved

section Reaching
variable {config : Config} {program : List Char} {reserved : List Nat}

theorem Filling.room (filling : Filling config program) :
    config.required.length ≤ (freeCells config.cells).length := by
  obtain ⟨reserved, inside, holds, _⟩ := filling.filled
  rw [← holds.length_eq, read, List.length_map]
  exact inside.length_le

theorem filling_of_assemble {ordering word : List Char}
    (written : assemble config.cells reserved ordering word = program)
    (inside : reserved.Sublist (freeCells config.cells))
    (sized : ordering.length = reserved.length)
    (fills : word.length = (leftFree (freeCells config.cells) reserved).length)
    (holds : ordering.Perm config.required) (others : ∀ char ∈ word, char ∈ config.available) :
    Filling config program := by
  obtain ⟨fits, first, second⟩ := (assemble_eq_iff inside sized fills).mp written
  refine ⟨fits, reserved, inside, ?_, ?_⟩
  · rw [first]
    exact holds
  · rw [second]
    exact others

theorem read_leftFree_iff {free : List Nat} {available : List Char} :
    (∀ char ∈ read program (leftFree free reserved), char ∈ available) ↔
      ∀ slot ∈ free, slot ∉ reserved → program.getD slot Grid.filler ∈ available := by
  simp only [read, List.forall_mem_map, mem_leftFree, and_imp]

-- Every program has a reservation that is not skipped: the latest one.
theorem filling_iff_reaches : Filling config program ↔ ∃ reserved, Reaches config program reserved := by
  constructor
  · rintro ⟨fits, reserved, inside, holds, others⟩
    have sorted := freeCells_sorted config.cells
    have distinct := freeCells_nodup config.cells
    refine ⟨latest (program.getD · Grid.filler) config.required (freeCells config.cells), fits,
      List.filter_sublist, latest_holds sorted inside holds, ?_, latest_late distinct⟩
    exact read_leftFree_iff.mpr (latest_available distinct holds (read_leftFree_iff.mp others))
  · rintro ⟨reserved, fits, inside, holds, others, _⟩
    exact ⟨fits, reserved, inside, holds, others⟩

theorem Reaches.eq_latest (reaches : Reaches config program reserved) :
    reserved = latest (program.getD · Grid.filler) config.required (freeCells config.cells) :=
  late_unique (freeCells_sorted config.cells) reaches.inside reaches.holds reaches.late

theorem Reaches.length_eq (reaches : Reaches config program reserved) :
    reserved.length = config.required.length := by
  rw [← reaches.holds.length_eq, read, List.length_map]

end Reaching
end Hexagony.Search
