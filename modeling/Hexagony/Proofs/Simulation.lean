import Mathlib.Logic.Function.Iterate
import Mathlib.Tactic.Common

namespace Hexagony

-- The second machine makes good a step that took the first one to `after`. What is seen of it in
-- the middle of its steps is what the first shows after its own.
def MakesGood {σ τ ω : Type} (g : τ → τ) (see : σ → ω) (view : τ → ω) (pace : Nat)
    (related : Nat → σ → τ → Prop) (rank : Nat) (after : σ) (t : τ) : Prop :=
  ∃ steps ≤ pace, ∃ next, related next after (g^[steps] t) ∧ (steps = 0 → next < rank) ∧
    ∀ i, 0 < i → i < steps → view (g^[i] t) = see after

namespace MakesGood
variable {σ τ ω : Type} {g : τ → τ} {see : σ → ω} {view : τ → ω} {pace : Nat}
  {related : Nat → σ → τ → Prop} {rank next : Nat} {after : σ} {t : τ}

theorem by_none (ahead : related next after t) (less : next < rank) :
    MakesGood g see view pace related rank after t :=
  ⟨0, Nat.zero_le _, next, ahead, fun _ => less, by omega⟩

theorem by_one (ahead : related next after (g t)) (room : 1 ≤ pace) :
    MakesGood g see view pace related rank after t :=
  ⟨1, room, next, ahead, by simp, by omega⟩

end MakesGood

structure Paced {σ τ ω : Type} (f : σ → σ) (g : τ → τ) (see : σ → ω) (view : τ → ω) (pace : Nat)
    (related : Nat → σ → τ → Prop) : Prop where
  agree : ∀ {rank s t}, related rank s t → view t = see s
  step : ∀ {rank s t}, related rank s t → MakesGood g see view pace related rank (f s) t

namespace Paced
variable {σ τ ω : Type} {f : σ → σ} {g : τ → τ} {see : σ → ω} {view : τ → ω} {pace : Nat}
  {related : Nat → σ → τ → Prop} {rank : Nat} {s : σ} {t : τ}

theorem keeps_up (paced : Paced f g see view pace related) (start : related rank s t) (n : Nat) :
    ∃ m ≤ pace * n, ∃ next, related next (f^[n] s) (g^[m] t) := by
  induction n generalizing rank s t with
  | zero => exact ⟨0, Nat.zero_le _, rank, start⟩
  | succ n ih =>
    obtain ⟨steps, few, next, ahead, _, _⟩ := paced.step start
    obtain ⟨m, bound, last, reached⟩ := ih ahead
    refine ⟨m + steps, ?_, last, ?_⟩
    · rw [Nat.mul_succ]
      omega
    · rw [Function.iterate_succ_apply, Function.iterate_add_apply]
      exact reached

theorem moves_on (paced : Paced f g see view pace related) (start : related rank s t) :
    ∃ n steps next, 0 < steps ∧ related next (f^[n] s) (g^[steps] t) ∧
      ∀ i, 0 < i → i < steps → view (g^[i] t) = see (f^[n] s) := by
  induction rank using Nat.strongRecOn generalizing s t with
  | ind rank ih =>
    obtain ⟨steps, _, next, ahead, idle, between⟩ := paced.step start
    rcases Nat.eq_zero_or_pos steps with still | moved
    · subst still
      obtain ⟨n, later, last, moved, reached, between⟩ := ih next (idle rfl) ahead
      refine ⟨n + 1, later, last, moved, ?_, ?_⟩
      · rw [Function.iterate_succ_apply]
        exact reached
      · intro i started unfinished
        rw [Function.iterate_succ_apply]
        exact between i started unfinished
    · exact ⟨1, steps, next, moved, ahead, between⟩

theorem shows (paced : Paced f g see view pace related) (start : related rank s t) (n : Nat) :
    ∃ m ≤ pace * n, view (g^[m] t) = see (f^[n] s) := by
  obtain ⟨m, bound, next, reached⟩ := paced.keeps_up start n
  exact ⟨m, bound, paced.agree reached⟩

theorem shown (paced : Paced f g see view pace related) (start : related rank s t) (m : Nat) :
    ∃ n, view (g^[m] t) = see (f^[n] s) := by
  induction m using Nat.strongRecOn generalizing rank s t with
  | ind m ih =>
    rcases Nat.eq_zero_or_pos m with none | some
    · subst none
      exact ⟨0, paced.agree start⟩
    · obtain ⟨n, steps, next, moved, reached, between⟩ := paced.moves_on start
      by_cases inside : m < steps
      · exact ⟨n, between m some inside⟩
      · obtain ⟨later, same⟩ := ih (m - steps) (by omega) reached
        refine ⟨later + n, ?_⟩
        rw [Function.iterate_add_apply f, ← same, ← Function.iterate_add_apply g]
        congr 2
        omega

end Paced
end Hexagony
