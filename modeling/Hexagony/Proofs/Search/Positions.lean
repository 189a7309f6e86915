import Mathlib.Data.List.FinRange
import Mathlib.Data.List.Sort
import Hexagony.Proofs.Search.Choice

namespace Hexagony.Choice
open Nat
variable {α β : Type} {count : Nat}

structure Enumerates (wanted : List (Fin count) → Prop) (sequences : List (List (Fin count))) :
    Prop where
  ordered : sequences.Pairwise (List.Lex (· < ·))
  complete : ∀ positions, positions ∈ sequences ↔ wanted positions

theorem Enumerates.unique {wanted : List (Fin count) → Prop} {sequences others : List (List (Fin count))}
    (first : Enumerates wanted sequences) (second : Enumerates wanted others) :
    sequences = others := by
  apply first.ordered.eq_of_mem_iff second.ordered
  intro positions
  rw [first.complete, second.complete]

section Renaming
variable (f : α → β)

theorem subsets_map (size : Nat) (items : List α) :
    subsets size (items.map f) = (subsets size items).map (List.map f) := by
  induction items generalizing size with
  | nil =>
    cases size with
    | zero => simp [subsets_zero]
    | succ size => simp [subsets_nil]
  | cons first rest ih =>
    cases size with
    | zero => simp [subsets_zero]
    | succ size => simp [subsets_cons, ih]

theorem picks_map (items : List α) :
    picks (items.map f) = (picks items).map fun pick => (f pick.1, pick.2.map f) := by
  induction items with
  | nil => rfl
  | cons first rest ih => simp [picks, ih]

theorem arrangements_map (length : Nat) (items : List α) :
    arrangements length (items.map f) = (arrangements length items).map (List.map f) := by
  induction length generalizing items with
  | zero => rfl
  | succ length ih =>
    simp [arrangements, picks_map, ih, List.flatMap_map, List.map_flatMap, Function.comp_def]

theorem orderings_map (items : List α) :
    orderings (items.map f) = (orderings items).map (List.map f) := by
  rw [orderings, List.length_map, arrangements_map]
  rfl

end Renaming

section Order
variable {items : List (Fin count)}

-- A choice with the first item comes before every choice without it, as all other items are greater.
theorem pairwise_subsets (rising : items.Pairwise (· < ·)) (size : Nat) :
    (subsets size items).Pairwise (List.Lex (· < ·)) := by
  induction items generalizing size with
  | nil =>
    cases size with
    | zero => simp [subsets_zero]
    | succ size => simp [subsets_nil]
  | cons first rest ih =>
    cases size with
    | zero => simp [subsets_zero]
    | succ size =>
      obtain ⟨least, others⟩ := List.pairwise_cons.mp rising
      rw [subsets_cons, List.pairwise_append]
      refine ⟨List.pairwise_map.mpr ((ih others size).imp .cons), ih others (size + 1), ?_⟩
      intro chosen withFirst other without
      obtain ⟨tail, _, rfl⟩ := List.mem_map.mp withFirst
      obtain ⟨inside, sized⟩ := mem_subsets.mp without
      cases other with
      | nil => cases sized
      | cons head _ => exact .rel (least head (inside.subset List.mem_cons_self))

theorem picks_sublist {items : List α} {picked : α × List α} (listed : picked ∈ picks items) :
    picked.2.Sublist items := by
  induction items generalizing picked with
  | nil => cases listed
  | cons first rest ih =>
    rcases List.mem_cons.mp listed with rfl | later
    · exact List.sublist_cons_self first rest
    · obtain ⟨_, inner, rfl⟩ := List.mem_map.mp later
      exact (ih inner).cons_cons first

theorem pairwise_arrangements (rising : items.Pairwise (· < ·)) (length : Nat) :
    (arrangements length items).Pairwise (List.Lex (· < ·)) := by
  induction length generalizing items with
  | zero => simp [arrangements]
  | succ length ih =>
    have firsts : (picks items).Pairwise (fun pick other => pick.1 < other.1) := by
      rw [← List.pairwise_map, picks_fst]
      exact rising
    rw [arrangements, List.pairwise_flatMap]
    refine ⟨?_, firsts.imp ?_⟩
    · intro pick listed
      exact List.pairwise_map.mpr ((ih (rising.sublist (picks_sublist listed))).imp .cons)
    · intro pick other less word listed later behind
      obtain ⟨_, _, rfl⟩ := List.mem_map.mp listed
      obtain ⟨_, _, rfl⟩ := List.mem_map.mp behind
      exact .rel less

end Order

section Positions

theorem rising_finRange (count : Nat) : (List.finRange count).Pairwise (· < ·) :=
  (List.sortedLT_finRange count).pairwise

theorem sublist_finRange_iff {positions : List (Fin count)} :
    positions.Sublist (List.finRange count) ↔ positions.Pairwise (· < ·) := by
  constructor
  · intro inside
    exact (rising_finRange count).sublist inside
  · intro rising
    have inside : positions ⊆ List.finRange count := fun position _ => List.mem_finRange position
    exact List.sublist_of_subperm_of_pairwise (List.subperm_of_subset rising.nodup inside) rising
      (rising_finRange count)

theorem enumerates_subsets (count size : Nat) :
    Enumerates (fun positions => positions.length = size ∧ positions.Pairwise (· < ·))
      (subsets size (List.finRange count)) where
  ordered := pairwise_subsets (rising_finRange count) size
  complete := by
    intro positions
    rw [mem_subsets, sublist_finRange_iff, and_comm]

theorem enumerates_orderings (count : Nat) :
    Enumerates (fun positions => positions.Perm (List.finRange count))
      (orderings (List.finRange count)) where
  ordered := pairwise_arrangements (rising_finRange count) _
  complete := fun _ => mem_orderings

theorem subsets_positions (size : Nat) (items : List α) :
    subsets size items = (subsets size (List.finRange items.length)).map (·.map items.get) := by
  rw [← subsets_map, List.map_get_finRange]

theorem orderings_positions (items : List α) :
    orderings items = (orderings (List.finRange items.length)).map (·.map items.get) := by
  rw [← orderings_map, List.map_get_finRange]

end Positions

-- The choices are read off at all rising sequences of positions, in lexicographic order, and there
-- are as many of them as the coefficient says: it is counted without a remainder in any round, and
-- in a word as well if no product is too large for one.
theorem subsets_exact (size : Nat) (items : List α) :
    (∃! sequences : List (List (Fin items.length)),
      Enumerates (fun positions => positions.length = size ∧ positions.Pairwise (· < ·)) sequences ∧
        subsets size items = sequences.map (·.map items.get)) ∧
    (∀ count chosen,
      (∀ round < chosen, round + 1 ∣ rounds count round * (count - round)) ∧
      binomial count chosen = (if count < chosen then 0 else rounds count chosen) ∧
      binomial count chosen = count.choose chosen ∧
      (chosen ≤ count → (∀ round < chosen, rounds count round * (count - round) < 2 ^ 128) →
        (wordRounds count chosen).toNat = binomial count chosen)) ∧
    (subsets size items).length = binomial items.length size := by
  refine ⟨⟨_, ⟨enumerates_subsets items.length size, subsets_positions size items⟩, ?_⟩, ?_, ?_⟩
  · rintro sequences ⟨enumerates, _⟩
    exact enumerates.unique (enumerates_subsets items.length size)
  · intro count chosen
    refine ⟨fun round _ => round_even count round, rfl, binomial_eq_choose count chosen, ?_⟩
    intro within fits
    rw [toNat_wordRounds within fits, rounds_eq_choose, binomial_eq_choose]
  · rw [length_subsets, binomial_eq_choose]

-- Items that are equal are chosen apart. The other count has products close to the size of a word.
theorem subsets_exact_equal :
    let items := ['a', 'b', 'a']
    (∃! sequences : List (List (Fin 3)),
      Enumerates (fun positions => positions.length = 2 ∧ positions.Pairwise (· < ·)) sequences ∧
        [['a', 'b'], ['a', 'a'], ['b', 'a']] = sequences.map (·.map items.get)) ∧
    binomial 3 2 = 3 ∧ 62 ∣ rounds 125 61 * 64 ∧
    (∀ round < 62, rounds 125 round * (125 - round) < 2 ^ 128) ∧
    (wordRounds 125 62).toNat = binomial 125 62 := by
  intro items
  obtain ⟨listed, counted, sized⟩ := subsets_exact 2 items
  have fits : ∀ round < 62, rounds 125 round * (125 - round) < 2 ^ 128 := by decide +kernel
  obtain ⟨even, _, _, words⟩ := counted 125 62
  exact ⟨listed, sized.symm, even 61 (by decide), fits, words (by decide) fits⟩

-- The orderings are read off at all permutations of the positions, in lexicographic order, so there
-- is one for every permutation, whether or not items are equal.
theorem orderings_exact (items : List α) :
    (orderings items).length = items.length ! ∧
    (∃! sequences : List (List (Fin items.length)),
      Enumerates (fun positions => positions.Perm (List.finRange items.length)) sequences ∧
        orderings items = sequences.map (·.map items.get)) ∧
    ∀ ordering ∈ orderings items, ordering.Perm items := by
  refine ⟨length_orderings items,
    ⟨_, ⟨enumerates_orderings items.length, orderings_positions items⟩, ?_⟩, ?_⟩
  · rintro sequences ⟨enumerates, _⟩
    exact enumerates.unique (enumerates_orderings items.length)
  · intro ordering listed
    rw [orderings_positions] at listed
    obtain ⟨positions, permuted, rfl⟩ := List.mem_map.mp listed
    have whole := (mem_orderings.mp permuted).map items.get
    rwa [List.map_get_finRange] at whole

theorem orderings_exact_equal :
    let items := ['a', 'b', 'a']
    (orderings items).length = 3 ! ∧
    (∃! sequences : List (List (Fin 3)),
      Enumerates (fun positions => positions.Perm (List.finRange 3)) sequences ∧
        orderings items = sequences.map (·.map items.get)) ∧
    ['b', 'a', 'a'] ∈ orderings items ∧ ['b', 'a', 'a'].Perm items := by
  intro items
  have listed : ['b', 'a', 'a'] ∈ orderings items := by decide
  obtain ⟨sized, read, rearranged⟩ := orderings_exact items
  exact ⟨sized, read, listed, rearranged _ listed⟩

end Hexagony.Choice
