import Mathlib.Algebra.Ring.Nat
import Mathlib.Data.List.Destutter
import Mathlib.Data.List.Sort

namespace Hexagony.Listing
variable {α β : Type}

theorem getElem?_flatMap {blocks : List α} {block : α} {place inner : Nat}
    (found : blocks[place]? = some block) (nodes : α → List β)
    (inside : inner < (nodes block).length) :
    (blocks.flatMap nodes)[((blocks.take place).flatMap nodes).length + inner]? =
      (nodes block)[inner]? := by
  obtain ⟨bound, rfl⟩ := List.getElem?_eq_some_iff.mp found
  have parts : blocks = blocks.take place ++ blocks[place] :: blocks.drop (place + 1) := by
    rw [List.getElem_cons_drop, List.take_append_drop]
  have laid : blocks.flatMap nodes = (blocks.take place).flatMap nodes ++
      (nodes blocks[place] ++ (blocks.drop (place + 1)).flatMap nodes) := by
    conv_lhs => rw [parts, List.flatMap_append, List.flatMap_cons]
  rw [laid, List.getElem?_append_right (Nat.le_add_right _ _), Nat.add_sub_cancel_left,
    List.getElem?_append_left inside]

theorem exists_of_getElem?_flatMap {blocks : List α} {nodes : α → List β}
    {index : Nat} {node : β} (found : (blocks.flatMap nodes)[index]? = some node) :
    ∃ place block inner, blocks[place]? = some block ∧
      index = ((blocks.take place).flatMap nodes).length + inner ∧
      (nodes block)[inner]? = some node := by
  induction blocks generalizing index with
  | nil => simp at found
  | cons first rest ih =>
    rw [List.flatMap_cons] at found
    rcases Nat.lt_or_ge index (nodes first).length with here | later
    · rw [List.getElem?_append_left here] at found
      exact ⟨0, first, index, rfl, by simp, found⟩
    · rw [List.getElem?_append_right later] at found
      obtain ⟨place, block, inner, member, position, held⟩ := ih found
      refine ⟨place + 1, block, inner, member, ?_, held⟩
      rw [List.take_succ_cons, List.flatMap_cons, List.length_append]
      omega

theorem flatMap_set {items : List α} {index : Nat} {old : α} (new : α) (f : α → List β)
    (found : items[index]? = some old) :
    (f old ++ (items.set index new).flatMap f).Perm (f new ++ items.flatMap f) := by
  induction items generalizing index with
  | nil => cases found
  | cons first others ih =>
    cases index with
    | zero =>
      cases found
      rw [List.set_cons_zero, List.flatMap_cons, List.flatMap_cons, ← List.append_assoc,
        ← List.append_assoc]
      exact List.perm_append_comm.append_right _
    | succ index =>
      rw [List.set_cons_succ, List.flatMap_cons, List.flatMap_cons]
      have moved := (ih found).append_left (f first)
      have left := List.perm_append_comm_assoc (f old) (f first) ((others.set index new).flatMap f)
      have right := List.perm_append_comm_assoc (f first) (f new) (others.flatMap f)
      exact (left.trans moved).trans right

theorem sum_set {items : List α} {index : Nat} {old : α} (new : α) (f : α → Nat)
    (found : items[index]? = some old) :
    f old + ((items.set index new).map f).sum = f new + (items.map f).sum := by
  induction items generalizing index with
  | nil => cases found
  | cons first others ih =>
    cases index with
    | zero =>
      cases found
      simp only [List.set_cons_zero, List.map_cons, List.sum_cons]
      omega
    | succ index =>
      have others := ih found
      simp only [List.set_cons_succ, List.map_cons, List.sum_cons]
      omega

section Sorted
variable [LinearOrder α] {xs : List α} {x : α}

def sortDedup (xs : List α) : List α := (xs.mergeSort (· ≤ ·)).destutter (· ≠ ·)

theorem mem_destutter' (first : α) : x ∈ xs.destutter' (· ≠ ·) first ↔ x = first ∨ x ∈ xs := by
  induction xs generalizing first with
  | nil => simp
  | cons next rest ih =>
    by_cases same : first = next
    · rw [List.destutter'_cons_neg _ (not_not.mpr same), ih, List.mem_cons, same, or_self_left]
    · rw [List.destutter'_cons_pos _ same, List.mem_cons, ih, List.mem_cons]

theorem mem_sortDedup : x ∈ sortDedup xs ↔ x ∈ xs := by
  rw [sortDedup, ← (List.mergeSort_perm xs (· ≤ ·)).mem_iff]
  cases xs.mergeSort (· ≤ ·) with
  | nil => simp
  | cons first rest => rw [List.destutter_cons', mem_destutter', List.mem_cons]

theorem pairwise_sortDedup (xs : List α) : (sortDedup xs).Pairwise (· < ·) := by
  have sorted : (xs.mergeSort (· ≤ ·)).Pairwise fun first second => decide (first ≤ second) :=
    List.pairwise_mergeSort (by simpa using fun _ _ _ => le_trans) (by simpa using le_total) xs
  simp only [decide_eq_true_eq] at sorted
  have rising := (sorted.sublist (List.destutter_sublist (· ≠ ·) _)).isChain
  have apart := List.isChain_destutter (· ≠ ·) (xs.mergeSort (· ≤ ·))
  refine List.IsChain.pairwise (List.isChain_iff_getElem.mpr fun index inside => ?_)
  exact lt_of_le_of_ne (rising.getElem index inside) (apart.getElem index inside)

-- A sorted list without repetitions comes out of every list with the same entries.
theorem sortDedup_eq {sorted : List α} (rising : sorted.Pairwise (· < ·))
    (same : ∀ x, x ∈ xs ↔ x ∈ sorted) : sortDedup xs = sorted :=
  (pairwise_sortDedup xs).eq_of_mem_iff rising fun x => mem_sortDedup.trans (same x)

end Sorted

end Hexagony.Listing
