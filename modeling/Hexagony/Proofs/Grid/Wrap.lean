import Hexagony.Grid.Wrap
import Hexagony.Proofs.Grid.Shape

namespace Hexagony.Grid

theorem acrossR_inside {size : Nat} {p : Point} (inside : Shape.contains size p = true) :
    Shape.contains size (acrossR p) = true := by
  rw [Shape.contains_iff] at inside ⊢
  obtain ⟨boundQ, boundR, boundY⟩ := inside
  refine ⟨boundY, ?_, ?_⟩
  · simpa [acrossR] using boundR
  · simpa [acrossR] using boundQ

theorem acrossQ_inside {size : Nat} {p : Point} (inside : Shape.contains size p = true) :
    Shape.contains size (acrossQ p) = true := by
  rw [Shape.contains_iff] at inside ⊢
  obtain ⟨boundQ, boundR, boundY⟩ := inside
  refine ⟨?_, boundY, ?_⟩
  · simpa [acrossQ] using boundQ
  · simpa [acrossQ] using boundR

theorem acrossY_inside {size : Nat} {p : Point} (inside : Shape.contains size p = true) :
    Shape.contains size (acrossY p) = true := by
  rw [Shape.contains_iff] at inside ⊢
  obtain ⟨boundQ, boundR, boundY⟩ := inside
  refine ⟨?_, ?_, ?_⟩
  · simpa [acrossY] using boundR
  · simpa [acrossY] using boundQ
  · have opposite : (acrossY p).q + (acrossY p).r = -(p.q + p.r) := by
      simp only [acrossY]
      omega
    rw [opposite, Int.natAbs_neg]
    exact boundY

theorem moved_sub_vector (p : Point) (heading : Direction) :
    p + heading.vector - heading.vector = p := by
  apply Point.ext <;> simp

theorem origin_inside {size : Nat} (positive : 0 < size) :
    Shape.contains size Point.origin = true := by
  rw [Shape.contains_iff]
  simpa [Point.origin] using positive

theorem step_inside {grid : Grid} {p : Point} (inside : grid.contains p = true)
    (heading : Direction) (isPositive : Bool) :
    grid.contains ((grid.step p heading).resolve isPositive) = true := by
  unfold step wrap
  rw [moved_sub_vector]
  have acrossR := acrossR_inside inside
  have acrossQ := acrossQ_inside inside
  have acrossY := acrossY_inside inside
  by_cases single : grid.size = 1
  · rw [if_pos single]
    exact origin_inside grid.size_pos
  · rw [if_neg single]
    by_cases stays : grid.contains (p + heading.vector) = true
    · rw [if_pos stays]
      exact stays
    · rw [if_neg stays]
      dsimp only
      -- Every way back is one of the three, or the cell itself.
      split <;> cases isPositive <;> assumption

theorem step_of_size {grid other : Grid} (same : grid.size = other.size) (p : Point)
    (heading : Direction) : grid.step p heading = other.step p heading := by
  obtain ⟨size, cells, positive, full⟩ := grid
  obtain ⟨otherSize, otherCells, otherPositive, otherFull⟩ := other
  change size = otherSize at same
  subst same
  rfl

end Hexagony.Grid
