import Mathlib.Algebra.Order.BigOperators.Ring.Finset
import Mathlib.Data.List.Nodup
import Mathlib.Data.Nat.Choose.Basic
import Mathlib.Data.Nat.Factorial.Basic
import Mathlib.Tactic.Common
import Hexagony.Search.Candidates

namespace Hexagony.Choice
open Nat
variable {α : Type}

theorem subsets_zero (items : List α) : subsets 0 items = [[]] := by
  unfold subsets
  simp

theorem subsets_nil (size : Nat) : subsets (size + 1) ([] : List α) = [] := by
  simp [subsets]

theorem subsets_of_few {size : Nat} {items : List α} (few : items.length < size) :
    subsets size items = [] := by
  unfold subsets
  rw [if_pos few]

theorem subsets_full (items : List α) : subsets items.length items = [items] := by
  cases items with
  | nil => exact subsets_zero []
  | cons first rest =>
    rw [List.length_cons, subsets, if_neg (by simp)]
    exact if_pos rfl

-- Taking all items at once spares a recursion that would come to the same.
theorem subsets_cons (size : Nat) (first : α) (rest : List α) :
    subsets (size + 1) (first :: rest) =
      (subsets size rest).map (first :: ·) ++ subsets (size + 1) rest := by
  rcases Nat.lt_trichotomy rest.length size with few | rfl | many
  · rw [subsets_of_few (by simpa using few), subsets_of_few few, subsets_of_few (by omega)]
    rfl
  · have full : subsets (rest.length + 1) (first :: rest) = _ := subsets_full (first :: rest)
    rw [full, subsets_full, subsets_of_few (Nat.lt_succ_self _)]
    rfl
  · conv_lhs => rw [subsets, if_neg (by simpa using Nat.le_of_lt many)]
    exact if_neg many.ne'

theorem mem_subsets {size : Nat} {items chosen : List α} :
    chosen ∈ subsets size items ↔ chosen.Sublist items ∧ chosen.length = size := by
  induction items generalizing size chosen with
  | nil =>
    cases size with
    | zero => simp [subsets_zero]
    | succ size =>
      rw [subsets_nil]
      constructor
      · intro listed
        cases listed
      · rintro ⟨inside, sized⟩
        rw [List.sublist_nil.mp inside] at sized
        cases sized
  | cons first rest ih =>
    cases size with
    | zero =>
      rw [subsets_zero, List.mem_singleton]
      constructor
      · rintro rfl
        exact ⟨List.nil_sublist _, rfl⟩
      · exact fun found => List.length_eq_zero_iff.mp found.2
    | succ size =>
      rw [subsets_cons, List.mem_append, List.mem_map, ih, List.sublist_cons_iff]
      constructor
      · rintro (⟨others, listed, rfl⟩ | ⟨inside, sized⟩)
        · obtain ⟨inside, sized⟩ := ih.mp listed
          exact ⟨.inr ⟨others, rfl, inside⟩, by rw [List.length_cons, sized]⟩
        · exact ⟨.inl inside, sized⟩
      · rintro ⟨inside | ⟨others, rfl, inside⟩, sized⟩
        · exact .inr ⟨inside, sized⟩
        · exact .inl ⟨others, ih.mpr ⟨inside, by simpa using sized⟩, rfl⟩

theorem nodup_subsets {items : List α} (distinct : items.Nodup) (size : Nat) :
    (subsets size items).Nodup := by
  induction items generalizing size with
  | nil =>
    cases size with
    | zero => simp [subsets_zero]
    | succ size => simp [subsets_nil]
  | cons first rest ih =>
    cases size with
    | zero => simp [subsets_zero]
    | succ size =>
      obtain ⟨fresh, others⟩ := List.nodup_cons.mp distinct
      rw [subsets_cons]
      refine ((ih others size).map List.cons_injective).append (ih others (size + 1)) ?_
      intro chosen withFirst without
      obtain ⟨_, _, rfl⟩ := List.mem_map.mp withFirst
      exact fresh ((mem_subsets.mp without).1.subset List.mem_cons_self)

theorem length_subsets (size : Nat) (items : List α) :
    (subsets size items).length = items.length.choose size := by
  induction items generalizing size with
  | nil =>
    cases size with
    | zero => simp [subsets_zero]
    | succ size => simp [subsets_nil]
  | cons first rest ih =>
    cases size with
    | zero => simp [subsets_zero]
    | succ size =>
      rw [subsets_cons, List.length_append, List.length_map, ih, ih, List.length_cons,
        Nat.choose_succ_succ]

section Rounds
variable {count : Nat}

def rounds (count done : Nat) : Nat :=
  (List.range done).foldl (fun total index => total * (count - index) / (index + 1)) 1

theorem rounds_succ (count done : Nat) :
    rounds count (done + 1) = rounds count done * (count - done) / (done + 1) := by
  rw [rounds, List.range_succ, List.foldl_concat]
  rfl

-- After every round the total is a coefficient, so the next division comes out even.
theorem rounds_eq_choose (count done : Nat) : rounds count done = count.choose done := by
  induction done with
  | zero => simp [rounds]
  | succ done ih =>
    rw [rounds_succ, ih, ← Nat.choose_succ_right_eq]
    exact Nat.mul_div_cancel _ (Nat.succ_pos done)

theorem round_even (count done : Nat) : done + 1 ∣ rounds count done * (count - done) := by
  rw [rounds_eq_choose, ← Nat.choose_succ_right_eq]
  exact Nat.dvd_mul_left _ _

-- The same rounds with the total in a word of 128 bits, where a product may wrap around.
def wordRounds (count done : Nat) : BitVec 128 :=
  (List.range done).foldl
    (fun total index => total * BitVec.ofNat 128 (count - index) / BitVec.ofNat 128 (index + 1)) 1

theorem wordRounds_succ (count done : Nat) :
    wordRounds count (done + 1) =
      wordRounds count done * BitVec.ofNat 128 (count - done) / BitVec.ofNat 128 (done + 1) := by
  rw [wordRounds, List.range_succ, List.foldl_concat]
  rfl

-- No product wraps around, so a word holds the total after every round. The first product is the
-- count itself, which bounds all divisors.
theorem toNat_wordRounds {done : Nat} (within : done ≤ count)
    (fits : ∀ round < done, rounds count round * (count - round) < 2 ^ 128) :
    (wordRounds count done).toNat = rounds count done := by
  induction done with
  | zero => rfl
  | succ done ih =>
    have before := ih (by omega) fun round earlier => fits round (by omega)
    have product := fits done (by omega)
    have all := fits 0 (by omega)
    have positive : 0 < rounds count done := by
      rw [rounds_eq_choose]
      exact Nat.choose_pos (by omega)
    have factor : count - done < 2 ^ 128 :=
      Nat.lt_of_le_of_lt (Nat.le_mul_of_pos_left _ positive) product
    have divisor : done + 1 < 2 ^ 128 := by
      have whole : rounds count 0 * (count - 0) = count := Nat.one_mul count
      omega
    rw [wordRounds_succ, BitVec.toNat_udiv, BitVec.toNat_mul, before, BitVec.toNat_ofNat,
      BitVec.toNat_ofNat, Nat.mod_eq_of_lt factor, Nat.mod_eq_of_lt divisor,
      Nat.mod_eq_of_lt product, rounds_succ]

-- Each product counts some of the orderings of the chosen items, and those are no more than all.
theorem products_fit {chosen : Nat} (within : chosen ≤ count)
    (few : count.choose chosen * chosen ! < 2 ^ 64) :
    ∀ round < chosen, rounds count round * (count - round) < 2 ^ 128 := by
  intro round earlier
  have sequences : count.descFactorial chosen < 2 ^ 64 := by
    rwa [Nat.descFactorial_eq_factorial_mul_choose, Nat.mul_comm]
  have shorter : rounds count round * (count - round) ≤ count.descFactorial (round + 1) := by
    rw [rounds_eq_choose, Nat.descFactorial_succ, Nat.mul_comm]
    refine Nat.mul_le_mul_left _ ?_
    rw [Nat.descFactorial_eq_factorial_mul_choose]
    exact Nat.le_mul_of_pos_left _ (Nat.factorial_pos round)
  have longer : count.descFactorial (round + 1) ≤ count.descFactorial chosen := by
    rw [← Nat.descFactorial_mul_descFactorial (Nat.succ_le_of_lt earlier)]
    exact Nat.le_mul_of_pos_left _ (Nat.descFactorial_pos.mpr (by omega))
  omega

theorem binomial_eq_choose (count size : Nat) : binomial count size = count.choose size := by
  unfold binomial
  split
  · rename_i few
    exact (Nat.choose_eq_zero_of_lt few).symm
  · exact rounds_eq_choose count size

end Rounds

theorem picks_fst (items : List α) : (picks items).map Prod.fst = items := by
  induction items with
  | nil => rfl
  | cons first rest ih =>
    rw [picks, List.map_cons, List.map_map]
    congr 1

theorem picks_perm {items : List α} {picked : α × List α} (listed : picked ∈ picks items) :
    (picked.1 :: picked.2).Perm items := by
  induction items generalizing picked with
  | nil => cases listed
  | cons first rest ih =>
    rcases List.mem_cons.mp listed with rfl | later
    · exact .refl _
    · obtain ⟨⟨item, others⟩, inner, rfl⟩ := List.mem_map.mp later
      exact (List.Perm.swap first item others).trans ((ih inner).cons first)

theorem length_flatMap_of_forall {β : Type} {items : List α} {f : α → List β} {each : Nat}
    (sized : ∀ item ∈ items, (f item).length = each) :
    (items.flatMap f).length = items.length * each := by
  induction items with
  | nil => simp
  | cons first rest ih =>
    have others := ih fun item member => sized item (List.mem_cons_of_mem _ member)
    rw [List.flatMap_cons, List.length_append, sized first List.mem_cons_self, others,
      List.length_cons, Nat.succ_mul, Nat.add_comm]

theorem length_arrangements {length : Nat} {items : List α} (sized : items.length = length) :
    (arrangements length items).length = length ! := by
  induction length generalizing items with
  | zero => rfl
  | succ length ih =>
    have each (pick : α × List α) (listed : pick ∈ picks items) :
        ((arrangements length pick.2).map (pick.1 :: ·)).length = length ! := by
      have whole := (picks_perm listed).length_eq
      rw [List.length_cons] at whole
      rw [List.length_map, ih (by omega)]
    have picked : (picks items).length = length + 1 := by
      rw [← sized, ← List.length_map Prod.fst, picks_fst]
    rw [arrangements, length_flatMap_of_forall each, picked, Nat.factorial_succ]

theorem length_orderings (items : List α) : (orderings items).length = items.length ! :=
  length_arrangements rfl

theorem sum_matching {β : Type} [BEq α] [LawfulBEq α] [DecidableEq α] {entries : List β} {key : β → α}
    {weight : β → Nat} {item : α} {each : Nat}
    (weighs : ∀ entry ∈ entries, weight entry = if key entry = item then each else 0) :
    (entries.map weight).sum = (entries.map key).count item * each := by
  induction entries with
  | nil => simp
  | cons first rest ih =>
    have others := ih fun entry member => weighs entry (List.mem_cons_of_mem _ member)
    rw [List.map_cons, List.sum_cons, others, weighs first List.mem_cons_self, List.map_cons]
    by_cases same : key first = item
    · rw [if_pos same, same, List.count_cons_self, Nat.add_mul, Nat.one_mul, Nat.add_comm]
    · rw [if_neg same, List.count_cons_of_ne same, Nat.zero_add]

section Rearrangements
variable [DecidableEq α]

-- How often equal items can change places among each other.
def symmetries (items : List α) : Nat := ∏ item ∈ items.toFinset, (items.count item)!

theorem symmetries_pos (items : List α) : 0 < symmetries items :=
  Finset.prod_pos fun _ _ => Nat.factorial_pos _

theorem symmetries_perm {items others : List α} (same : items.Perm others) :
    symmetries items = symmetries others := by
  unfold symmetries
  rw [List.toFinset_eq_of_perm _ _ same]
  exact Finset.prod_congr rfl fun item _ => by rw [same.count_eq]

theorem symmetries_of_nodup {items : List α} (distinct : items.Nodup) : symmetries items = 1 := by
  refine Finset.prod_eq_one fun item member => ?_
  rw [List.count_eq_one_of_mem distinct (List.mem_toFinset.mp member)]
  rfl

theorem symmetries_cons (first : α) (rest : List α) :
    symmetries (first :: rest) = (first :: rest).count first * symmetries rest := by
  have wider : symmetries rest = ∏ item ∈ (first :: rest).toFinset, (rest.count item)! := by
    refine Finset.prod_subset (by simp) ?_
    intro item _ absent
    rw [List.count_eq_zero_of_not_mem (fun member => absent (List.mem_toFinset.mpr member))]
    rfl
  have member : first ∈ (first :: rest).toFinset := by simp
  rw [wider, symmetries, ← Finset.mul_prod_erase _ _ member, ← Finset.mul_prod_erase _ _ member,
    ← Nat.mul_assoc, List.count_cons_self, Nat.factorial_succ]
  congr 1
  refine Finset.prod_congr rfl fun item other => ?_
  rw [List.count_cons_of_ne (Finset.ne_of_mem_erase other).symm]

theorem count_map_cons (first item : α) (word : List α) (words : List (List α)) :
    (words.map (first :: ·)).count (item :: word) = if first = item then words.count word else 0 := by
  by_cases same : first = item
  · rw [if_pos same, same]
    exact List.count_map_of_injective words _ List.cons_injective word
  · rw [if_neg same]
    refine List.count_eq_zero_of_not_mem fun member => ?_
    obtain ⟨_, _, equal⟩ := List.mem_map.mp member
    exact same (List.cons.inj equal).1

theorem count_picked {length : Nat} {items : List α} {pick : α × List α} {rest : List α}
    (counts : ∀ {others : List α}, others.length = length →
      (arrangements length others).count rest = if rest.Perm others then symmetries others else 0)
    (sized : items.length = length + 1) (listed : pick ∈ picks items) (first : α) :
    ((arrangements length pick.2).map (pick.1 :: ·)).count (first :: rest) =
      if pick.1 = first then
        if (first :: rest).Perm items then symmetries (items.erase first) else 0
      else 0 := by
  obtain ⟨item, others⟩ := pick
  have whole : (item :: others).Perm items := picks_perm listed
  have fewer : others.length = length := by
    have lengths := whole.length_eq
    rw [List.length_cons] at lengths
    omega
  rw [count_map_cons, counts fewer]
  by_cases same : item = first
  · subst same
    have left : others.Perm (items.erase item) := (List.cons_perm_iff_perm_erase.mp whole).2
    have either : rest.Perm others ↔ (item :: rest).Perm items :=
      ⟨fun same => (same.cons item).trans whole,
        fun same => (same.trans whole.symm).cons_inv⟩
    simp only [either, symmetries_perm left]
  · rw [if_neg same, if_neg same]

theorem count_arrangements {length : Nat} {items : List α} (sized : items.length = length)
    (word : List α) :
    (arrangements length items).count word = if word.Perm items then symmetries items else 0 := by
  induction length generalizing items word with
  | zero =>
    obtain rfl := List.length_eq_zero_iff.mp sized
    cases word with
    | nil => rfl
    | cons first rest => simp [arrangements]
  | succ length ih =>
    cases word with
    | nil =>
      have other : ¬([] : List α).Perm items := fun same => by simp [← same.length_eq] at sized
      rw [if_neg other]
      refine List.count_eq_zero_of_not_mem fun member => ?_
      obtain ⟨_, _, mapped⟩ := List.mem_flatMap.mp member
      simp at mapped
    | cons first rest =>
      have counted := sum_matching fun pick (listed : pick ∈ picks items) =>
        count_picked (fun fewer => ih fewer rest) sized listed first
      rw [arrangements, List.count_flatMap]
      refine counted.trans ?_
      rw [picks_fst]
      by_cases same : (first :: rest).Perm items
      · have member : first ∈ items := same.subset List.mem_cons_self
        have whole := List.perm_cons_erase member
        rw [if_pos same, if_pos same, symmetries_perm whole, symmetries_cons, whole.count_eq]
      · rw [if_neg same, if_neg same, Nat.mul_zero]

theorem count_orderings (items word : List α) :
    (orderings items).count word = if word.Perm items then symmetries items else 0 :=
  count_arrangements rfl word

theorem mem_orderings {items word : List α} : word ∈ orderings items ↔ word.Perm items := by
  rw [← List.count_pos_iff, count_orderings]
  split
  · rename_i same
    exact ⟨fun _ => same, fun _ => symmetries_pos items⟩
  · rename_i other
    simp [other]

end Rearrangements
end Hexagony.Choice
