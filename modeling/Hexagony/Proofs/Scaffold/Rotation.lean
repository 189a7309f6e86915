import Mathlib.Data.List.Rotate
import Mathlib.Order.Bounds.Defs
import Hexagony.Scaffold.Layout

namespace Hexagony.Rotation

theorem rotate_length {α : Type} (body : List α) (start : Nat) :
    (rotate body start).length = body.length := by
  simp only [rotate, List.length_append, List.length_drop, List.length_take]
  omega

theorem getElem?_rotate {α : Type} {body : List α} {start index : Nat}
    (inside : index < body.length) (begins : start < body.length) :
    (rotate body start)[(index + body.length - start) % body.length]? = body[index]? := by
  unfold rotate
  by_cases behind : start ≤ index
  · have place : (index + body.length - start) % body.length = index - start := by
      rw [show index + body.length - start = index - start + body.length by omega,
        Nat.add_mod_right, Nat.mod_eq_of_lt (by omega)]
    rw [place, List.getElem?_append_left (by rw [List.length_drop]; omega), List.getElem?_drop]
    congr 1
    omega
  · have place : (index + body.length - start) % body.length = index + body.length - start :=
      Nat.mod_eq_of_lt (by omega)
    rw [place, List.getElem?_append_right (by rw [List.length_drop]; omega), List.length_drop,
      List.getElem?_take_of_lt (by omega)]
    congr 1
    omega

theorem rotate_eq {α : Type} {body : List α} {start : Nat} (within : start ≤ body.length) :
    rotate body start = body.rotate start :=
  (List.rotate_eq_drop_append_take within).symm

theorem rotate_of_beyond {α : Type} {body : List α} {start : Nat} (beyond : body.length ≤ start) :
    rotate body start = body := by
  rw [rotate, List.drop_eq_nil_of_le beyond, List.take_of_length_le beyond, List.nil_append]

theorem rotate_isRotated {α : Type} (body : List α) (start : Nat) :
    List.IsRotated body (rotate body start) := by
  rcases Nat.le_total start body.length with within | beyond
  · exact ⟨start, (rotate_eq within).symm⟩
  · rw [rotate_of_beyond beyond]

theorem exists_rotate {α : Type} {body other : List α} (turned : List.IsRotated body other) :
    ∃ start, rotate body start = other := by
  obtain ⟨start, within, turns⟩ := List.isRotated_iff_mod.mp turned
  exact ⟨start, (rotate_eq within).trans turns⟩

theorem mem_canonical {body : List Nat} {item : Nat} : item ∈ canonical body ↔ item ∈ body :=
  (rotate_isRotated body (least body)).mem_iff.symm

section Least
variable {body starts : List Nat} {best bound : Nat}

theorem least_fold_lt (good : best < bound) (all : ∀ start ∈ starts, start < bound) :
    starts.foldl (fun best start => if rotate body start < rotate body best then start else best)
      best < bound := by
  induction starts generalizing best with
  | nil => exact good
  | cons start rest ih =>
    rw [List.foldl_cons]
    have later : ∀ other ∈ rest, other < bound := fun other member =>
      all other (List.mem_cons_of_mem _ member)
    split
    · exact ih (all start List.mem_cons_self) later
    · exact ih good later

theorem least_lt (some : body ≠ []) : least body < body.length :=
  least_fold_lt (List.length_pos_iff.mpr some) (fun _ member => List.mem_range.mp member)

-- Of the bodies looked at, and the one the search began with, none is smaller than what is kept.
theorem least_fold_minimal (body starts : List Nat) (best : Nat) :
    let found := starts.foldl
      (fun best start => if rotate body start < rotate body best then start else best) best
    ¬rotate body best < rotate body found ∧
      ∀ start ∈ starts, ¬rotate body start < rotate body found := by
  induction starts generalizing best with
  | nil => exact ⟨List.lt_irrefl _, by simp⟩
  | cons start rest ih =>
    rw [List.foldl_cons]
    by_cases smaller : rotate body start < rotate body best
    · rw [if_pos smaller]
      obtain ⟨first, others⟩ := ih start
      refine ⟨fun less => first (List.lt_trans smaller less), ?_⟩
      intro other member
      rcases List.mem_cons.mp member with rfl | later
      · exact first
      · exact others other later
    · rw [if_neg smaller]
      obtain ⟨first, others⟩ := ih best
      refine ⟨first, ?_⟩
      intro other member less
      rcases List.mem_cons.mp member with rfl | later
      · exact first (List.lt_of_le_of_lt (List.not_lt.mp smaller) less)
      · exact others other later less

theorem canonical_minimal (body : List Nat) (start : Nat) :
    ¬rotate body start < canonical body := by
  obtain ⟨first, others⟩ := least_fold_minimal body (List.range body.length) 0
  rcases Nat.lt_or_ge start body.length with within | beyond
  · exact others start (List.mem_range.mpr within)
  · have whole : rotate body start = rotate body 0 := by
      rw [rotate_of_beyond beyond]
      simp [rotate]
    rw [whole]
    exact first

theorem rotate_canonical_minimal (body : List Nat) (start : Nat) :
    ¬rotate (canonical body) start < canonical body := by
  have turned : List.IsRotated body (rotate (canonical body) start) :=
    (rotate_isRotated body (least body)).trans (rotate_isRotated (canonical body) start)
  obtain ⟨other, same⟩ := exists_rotate turned
  rw [← same]
  exact canonical_minimal body other

theorem least_fold_settled (minimal : ∀ start, ¬rotate body start < rotate body best) :
    starts.foldl (fun best start => if rotate body start < rotate body best then start else best)
      best = best := by
  induction starts with
  | nil => rfl
  | cons start rest ih =>
    rw [List.foldl_cons, if_neg (minimal start)]
    exact ih

theorem least_canonical (body : List Nat) : least (canonical body) = 0 := by
  apply least_fold_settled
  intro start
  have whole : rotate (canonical body) 0 = canonical body := by simp [rotate]
  rw [whole]
  exact rotate_canonical_minimal body start

theorem canonical_isRotated (body : List Nat) : List.IsRotated body (canonical body) :=
  rotate_isRotated body (least body)

-- Bodies that are rotations of each other have the same rotations, and of those only one is least.
theorem canonical_eq_iff {other : List Nat} :
    canonical body = canonical other ↔ List.IsRotated body other := by
  constructor
  · intro same
    have turned := canonical_isRotated body
    rw [same] at turned
    exact turned.trans (canonical_isRotated other).symm
  · intro turned
    obtain ⟨start, here⟩ := exists_rotate (turned.trans (canonical_isRotated other))
    obtain ⟨begin, there⟩ := exists_rotate (turned.symm.trans (canonical_isRotated body))
    have below := canonical_minimal body start
    have above := canonical_minimal other begin
    rw [here] at below
    rw [there] at above
    exact List.le_antisymm (List.not_lt.mp below) (List.not_lt.mp above)

-- The search keeps what it has until something smaller comes, so what it passed over before is
-- greater than what it found.
theorem least_fold_first (body : List Nat) (count : Nat) :
    let found := (List.range count).foldl
      (fun best start => if rotate body start < rotate body best then start else best) 0
    ∀ start < found, rotate body found < rotate body start := by
  induction count with
  | zero => simp
  | succ count ih =>
    obtain ⟨_, others⟩ := least_fold_minimal body (List.range count) 0
    rw [List.range_succ, List.foldl_concat]
    split
    · rename_i smaller
      intro _ start earlier
      by_contra below
      apply others start (List.mem_range.mpr earlier)
      exact List.lt_of_le_of_lt (List.not_lt.mp below) smaller
    · exact ih

theorem rotate?_of_least (body : List Nat) :
    rotate? body (least body) = some (canonical body) := by
  have inside : (body.isEmpty || least body ≤ body.length) = true := by
    cases body with
    | nil => rfl
    | cons item rest =>
      have early := least_lt (List.cons_ne_nil item rest)
      rw [decide_eq_true early.le, Bool.or_true]
  rw [rotate?, if_pos inside]
  rfl

theorem rotate_of_rotate? {body other : List Nat} {start : Nat}
    (turns : rotate? body start = some other) : rotate body start = other := by
  unfold rotate? at turns
  split at turns
  · exact Option.some.inj turns
  · cases turns

theorem least_isLeast (body : List Nat) :
    IsLeast {start | rotate? body start = some (canonical body)} (least body) := by
  refine ⟨rotate?_of_least body, ?_⟩
  intro start turns
  by_contra earlier
  have greater := least_fold_first body body.length start (Nat.lt_of_not_le earlier)
  rw [rotate_of_rotate? turns] at greater
  exact List.lt_irrefl _ greater

theorem canonical_canonical (body : List Nat) : canonical (canonical body) = canonical body :=
  canonical_eq_iff.mpr (canonical_isRotated body).symm

end Least

-- A body has one canonical rotation: none is smaller, the search finds its first start, and bodies
-- share it exactly if they are rotations of each other.
theorem canonical_exact (body : List Nat) :
    (∀ other, List.IsRotated body other → canonical body < other ∨ canonical body = other) ∧
      IsLeast {start | rotate? body start = some (canonical body)} (least body) ∧
      (∀ other, canonical body = canonical other ↔ List.IsRotated body other) ∧
      canonical (canonical body) = canonical body ∧ least (canonical body) = 0 := by
  refine ⟨?_, least_isLeast body, fun _ => canonical_eq_iff, canonical_canonical body,
    least_canonical body⟩
  intro other turned
  obtain ⟨start, rfl⟩ := exists_rotate turned
  exact List.le_iff_lt_or_eq.mp (List.not_lt.mp (canonical_minimal body start))

-- A body with a period: two starts give its least rotation, and the body turned by one has the same.
theorem canonical_exact_periodic :
    let body := [1, 0, 1, 0]
    List.IsRotated body [0, 1, 0, 1] ∧ canonical body = [0, 1, 0, 1] ∧
      rotate? body 3 = some (canonical body) ∧ least body ≤ 3 ∧ least body = 1 ∧
      canonical body = canonical [0, 1, 0, 1] ∧
      (canonical body < [1, 0, 1, 0] ∨ canonical body = [1, 0, 1, 0]) := by
  intro body
  have turned : List.IsRotated body [0, 1, 0, 1] := ⟨1, rfl⟩
  have again : rotate? body 3 = some (canonical body) := by decide
  obtain ⟨minimal, first, shared, _⟩ := canonical_exact body
  exact ⟨turned, by decide, again, first.2 again, by decide, (shared _).mpr turned,
    minimal _ (List.IsRotated.refl body)⟩

end Hexagony.Rotation
