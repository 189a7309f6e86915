import Mathlib.Tactic.FinCases
import Hexagony.Grid.Wrap
import Hexagony.Proofs.Grid.Wrap

namespace Hexagony

namespace Direction

def opposite : Direction → Direction
  | east => west
  | southEast => northWest
  | southWest => northEast
  | west => east
  | northWest => southEast
  | northEast => southWest

def turn : Direction → Direction
  | east => southEast
  | southEast => southWest
  | southWest => west
  | west => northWest
  | northWest => northEast
  | northEast => east

theorem index_turn (d : Direction) : d.turn.index = (d.index + 1) % 6 := by
  cases d <;> rfl

end Direction

namespace Point

@[simp] theorem add_y (a b : Point) : (a + b).y = a.y + b.y := by
  simp only [y, add_q, add_r]
  omega

def turn (p : Point) : Point := ⟨-p.r, p.q + p.r⟩

@[simp] theorem turn_q (p : Point) : p.turn.q = -p.r := rfl

@[simp] theorem turn_r (p : Point) : p.turn.r = -p.y := by
  simp only [turn, y]
  omega

@[simp] theorem turn_y (p : Point) : p.turn.y = -p.q := by
  simp only [turn, y]
  omega

theorem turn_add (a b : Point) : (a + b).turn = a.turn + b.turn := by
  apply Point.ext
  · simp only [turn_q, add_q, add_r]
    omega
  · simp only [turn_r, add_r, add_y]
    omega

end Point

theorem Direction.turn_vector (d : Direction) : d.turn.vector = d.vector.turn := by
  cases d <;> rfl

def InstructionPointer.turn (pointer : InstructionPointer) : InstructionPointer where
  point := pointer.point.turn
  heading := pointer.heading.turn

namespace Wrap

def outcomes : Wrap → List Point
  | fixed point => [point]
  | corner positive nonPositive => [positive, nonPositive]

def map (f : Point → Point) : Wrap → Wrap
  | fixed point => fixed (f point)
  | corner positive nonPositive => corner (f positive) (f nonPositive)

theorem mem_outcomes {wrap : Wrap} {point : Point} :
    point ∈ wrap.outcomes ↔ ∃ isPositive, wrap.resolve isPositive = point := by
  cases wrap with
  | fixed landing => simp [outcomes, resolve, eq_comm]
  | corner positive nonPositive => simp [outcomes, resolve, eq_comm, or_comm]

end Wrap

inductive Axis where
  | q
  | r
  | y
  deriving DecidableEq

namespace Axis

def coordinate : Axis → Point → Int
  | q => Point.q
  | r => Point.r
  | y => Point.y

def across : Axis → Point → Point
  | q => Grid.acrossQ
  | r => Grid.acrossR
  | y => Grid.acrossY

theorem forall_iff {P : Axis → Prop} : (∀ axis, P axis) ↔ P q ∧ P r ∧ P y :=
  ⟨fun all => ⟨all q, all r, all y⟩, fun ⟨onQ, onR, onY⟩ axis => by cases axis <;> assumption⟩

theorem exists_iff {P : Axis → Prop} : (∃ axis, P axis) ↔ P q ∨ P r ∨ P y := by
  constructor
  · rintro ⟨_ | _ | _, holds⟩ <;> simp [holds]
  · rintro (holds | holds | holds) <;> exact ⟨_, holds⟩

theorem coordinate_add (axis : Axis) (a b : Point) :
    axis.coordinate (a + b) = axis.coordinate a + axis.coordinate b := by
  cases axis <;> simp [coordinate]

theorem coordinate_opposite (axis : Axis) (d : Direction) :
    axis.coordinate d.opposite.vector = -axis.coordinate d.vector := by
  cases axis <;> cases d <;> rfl

theorem coordinate_across (axis : Axis) (p : Point) :
    axis.coordinate (axis.across p) = -axis.coordinate p := by
  cases axis <;> simp [coordinate, across, Grid.acrossQ, Grid.acrossR, Grid.acrossY, Point.y]

theorem across_across (axis : Axis) (p : Point) : axis.across (axis.across p) = p := by
  cases axis <;> simp [across, Grid.acrossQ, Grid.acrossR, Grid.acrossY]

theorem eq_origin_of_across (axis other : Axis) {p : Point} (apart : axis ≠ other)
    (same : axis.across p = other.across p) : p = Point.origin := by
  have sameQ := congrArg Point.q same
  have sameR := congrArg Point.r same
  apply Point.ext <;> cases axis <;> cases other <;>
    simp_all [across, Grid.acrossQ, Grid.acrossR, Grid.acrossY, Point.origin] <;> omega

theorem coordinate_vector (d : Direction) :
    (∃ axis, coordinate axis d.vector = 0) ∧ ∀ axis, (coordinate axis d.vector).natAbs ≤ 1 := by
  rw [exists_iff, forall_iff]
  cases d <;> decide

end Axis

namespace Grid
variable {grid : Grid} {p landing : Point} {heading : Direction}

theorem beyond_neg (coordinate : Int) : grid.beyond (-coordinate) = grid.beyond coordinate := by
  simp [beyond]

theorem contains_iff_axes :
    grid.contains p = true ↔ ∀ axis : Axis, grid.beyond (axis.coordinate p) = false := by
  simp only [beyond, decide_eq_false_iff_not, Nat.not_le, Axis.forall_iff]
  simp [contains, Shape.contains, Axis.coordinate, and_assoc]

-- No step leaves across all three pairs of sides: one of the coordinates is still that of a cell.
theorem moved_within (inside : grid.contains p = true) (heading : Direction) :
    ∃ axis : Axis, grid.beyond (axis.coordinate (p + heading.vector)) = false := by
  obtain ⟨⟨axis, still⟩, _⟩ := Axis.coordinate_vector heading
  refine ⟨axis, ?_⟩
  rw [Axis.coordinate_add, still, Int.add_zero]
  exact contains_iff_axes.mp inside axis

section Return

-- How a step can land: on the next cell, or back across a pair of sides that it has crossed.
inductive Lands (grid : Grid) (p : Point) (heading : Direction) : Point → Prop where
  | within (inside : grid.contains (p + heading.vector) = true) :
      Lands grid p heading (p + heading.vector)
  | back (axis : Axis) (crossed : grid.beyond (axis.coordinate (p + heading.vector)) = true) :
      Lands grid p heading (axis.across p)

theorem lands_iff : Lands grid p heading landing ↔
    (grid.contains (p + heading.vector) = true ∧ landing = p + heading.vector) ∨
      ∃ axis : Axis, grid.beyond (axis.coordinate (p + heading.vector)) = true ∧
        landing = axis.across p := by
  constructor
  · rintro (inside | ⟨axis, crossed⟩)
    · exact .inl ⟨inside, rfl⟩
    · exact .inr ⟨axis, crossed, rfl⟩
  · rintro (⟨inside, rfl⟩ | ⟨axis, crossed, rfl⟩)
    · exact .within inside
    · exact .back axis crossed

-- The way back crosses the same pair of sides, from the other one of the two.
theorem Lands.reverse (inside : grid.contains p = true) (lands : Lands grid p heading landing) :
    Lands grid landing heading.opposite p := by
  cases lands with
  | within _ =>
    have back : p + heading.vector + heading.opposite.vector = p := by
      apply Point.ext <;> cases heading <;> simp [Direction.vector, Direction.opposite]
    rw [lands_iff, back]
    exact .inl ⟨inside, rfl⟩
  | back axis crossed =>
    refine lands_iff.mpr (.inr ⟨axis, ?_, (axis.across_across p).symm⟩)
    have mirrored : axis.coordinate (axis.across p + heading.opposite.vector) =
        -axis.coordinate (p + heading.vector) := by
      rw [Axis.coordinate_add, Axis.coordinate_add, Axis.coordinate_across,
        Axis.coordinate_opposite, Int.neg_add]
    rwa [mirrored, beyond_neg]

theorem step_of_contains (several : grid.size ≠ 1)
    (stays : grid.contains (p + heading.vector) = true) :
    grid.step p heading = .fixed (p + heading.vector) := by
  simp [step, wrap, several, stays]

theorem mem_outcomes_step (several : grid.size ≠ 1) (inside : grid.contains p = true) :
    landing ∈ (grid.step p heading).outcomes ↔ Lands grid p heading landing := by
  have level := moved_within inside heading
  rw [lands_iff]
  by_cases stays : grid.contains (p + heading.vector) = true
  · rw [step_of_contains several stays, Wrap.outcomes, List.mem_singleton]
    simp [stays, contains_iff_axes.mp stays]
  · unfold step wrap
    rw [if_neg several, if_neg stays, moved_sub_vector]
    rw [contains_iff_axes, Axis.forall_iff] at stays
    rw [contains_iff_axes, Axis.forall_iff, Axis.exists_iff]
    rw [Axis.exists_iff] at level
    generalize p + heading.vector = moved at level stays
    simp only [Axis.coordinate] at level stays ⊢
    cases overQ : grid.beyond moved.q <;> cases overY : grid.beyond moved.y <;>
      cases overR : grid.beyond moved.r <;> simp_all [Wrap.outcomes, Axis.across, or_comm]

theorem step_origin (several : grid.size ≠ 1) (heading : Direction) :
    grid.step Point.origin heading = .fixed (Point.origin + heading.vector) := by
  apply step_of_contains several
  rw [contains_iff_axes]
  intro axis
  have small := (Axis.coordinate_vector heading).2 axis
  have centre : axis.coordinate Point.origin = 0 := by cases axis <;> rfl
  have positive := grid.size_pos
  rw [Axis.coordinate_add, centre]
  simp only [beyond, decide_eq_false_iff_not]
  omega

theorem corner_apart {positive nonPositive : Point}
    (forks : grid.step p heading = .corner positive nonPositive) : positive ≠ nonPositive := by
  intro same
  have several : grid.size ≠ 1 := by
    intro single
    simp [step, wrap, single] at forks
  have centre : p = Point.origin := by
    unfold step wrap at forks
    rw [if_neg several, moved_sub_vector] at forks
    split at forks
    · cases forks
    · dsimp only at forks
      split at forks <;> cases forks
      · exact Axis.eq_origin_of_across .q .y (by decide) same
      · exact Axis.eq_origin_of_across .r .q (by decide) same
      · exact Axis.eq_origin_of_across .y .r (by decide) same
  rw [centre, step_origin several] at forks
  cases forks

theorem back_of_outcome (inside : grid.contains p = true)
    (lands : landing ∈ (grid.step p heading).outcomes) :
    p ∈ (grid.step landing heading.opposite).outcomes := by
  obtain ⟨isPositive, reached⟩ := Wrap.mem_outcomes.mp lands
  have landed : grid.contains landing = true := reached ▸ step_inside inside heading isPositive
  by_cases single : grid.size = 1
  · have alone : p = Point.origin := by
      rw [contains, single, Shape.contains_iff] at inside
      apply Point.ext <;> simp [Point.origin] <;> omega
    simp [step, wrap, single, alone, Wrap.outcomes]
  · rw [mem_outcomes_step single inside] at lands
    rw [mem_outcomes_step single landed]
    exact lands.reverse inside

-- Every landing point of a step lies on the hexagon, and the opposite step from there may lead back.
-- A step leaves across one pair of sides or two, never all three, and the two landing points at a
-- corner differ.
theorem step_reversible (inside : grid.contains p = true) (heading : Direction) :
    (∀ landing ∈ (grid.step p heading).outcomes, grid.contains landing = true ∧
        p ∈ (grid.step landing heading.opposite).outcomes) ∧
      (∀ positive nonPositive, grid.step p heading = .corner positive nonPositive →
        positive ≠ nonPositive) ∧
      let moved := p + heading.vector
      ¬(grid.beyond moved.q = true ∧ grid.beyond moved.y = true ∧ grid.beyond moved.r = true) ∧
        (grid.contains moved = false →
          grid.beyond moved.q = true ∨ grid.beyond moved.y = true ∨ grid.beyond moved.r = true) := by
  refine ⟨fun landing lands => ⟨?_, back_of_outcome inside lands⟩, fun _ _ => corner_apart, ?_, ?_⟩
  · obtain ⟨isPositive, rfl⟩ := Wrap.mem_outcomes.mp lands
    exact step_inside inside heading isPositive
  · rintro ⟨overQ, overY, overR⟩
    obtain ⟨axis, within⟩ := moved_within inside heading
    cases axis <;> simp_all [Axis.coordinate]
  · intro leaves
    rw [← Bool.not_eq_true, contains_iff_axes, Axis.forall_iff] at leaves
    simp only [Axis.coordinate] at leaves
    grind

-- The eastern corner: the step off it may land on either of two other corners.
theorem step_reversible_corner :
    let grid := Grid.blank 3
    grid.contains ⟨2, 0⟩ = true ∧ grid.step ⟨2, 0⟩ .east = .corner ⟨-2, 2⟩ ⟨0, -2⟩ ∧
      grid.contains ⟨0, -2⟩ = true ∧ ⟨2, 0⟩ ∈ (grid.step ⟨0, -2⟩ .west).outcomes ∧
      (⟨-2, 2⟩ : Point) ≠ ⟨0, -2⟩ := by
  intro grid
  have inside : grid.contains ⟨2, 0⟩ = true := by decide
  have forks : grid.step ⟨2, 0⟩ .east = .corner ⟨-2, 2⟩ ⟨0, -2⟩ := by decide
  obtain ⟨lands, apart, _⟩ := step_reversible inside .east
  obtain ⟨landed, back⟩ := lands ⟨0, -2⟩ (by simp [forks, Wrap.outcomes])
  exact ⟨inside, forks, landed, back, apart _ _ forks⟩

end Return

section Turn

theorem contains_turn (grid : Grid) (p : Point) : grid.contains p.turn = grid.contains p := by
  simp only [contains, Shape.contains, Point.turn_q, Point.turn_r, Point.turn_y, Int.natAbs_neg]
  grind

theorem across_turn (p : Point) :
    acrossQ p.turn = (acrossR p).turn ∧ acrossR p.turn = (acrossY p).turn ∧
      acrossY p.turn = (acrossQ p).turn := by
  refine ⟨Point.ext ?_ ?_, Point.ext ?_ ?_, Point.ext ?_ ?_⟩ <;>
    simp only [acrossQ, acrossR, acrossY, Point.turn] <;> omega

theorem step_turn (grid : Grid) (p : Point) (heading : Direction) :
    grid.step p.turn heading.turn = (grid.step p heading).map Point.turn := by
  obtain ⟨nextQ, nextR, nextY⟩ := across_turn p
  unfold step wrap
  rw [moved_sub_vector, moved_sub_vector, Direction.turn_vector, ← Point.turn_add, contains_turn]
  dsimp only
  rw [nextQ, nextR, nextY, Point.turn_q, Point.turn_r, Point.turn_y, beyond_neg, beyond_neg,
    beyond_neg]
  split
  · rfl
  · split
    · rfl
    · cases grid.beyond (p + heading.vector).q <;> cases grid.beyond (p + heading.vector).y <;>
        cases grid.beyond (p + heading.vector).r <;> rfl

end Turn
end Grid

theorem InstructionPointer.corners_turn (size : Nat) (index : Fin 6) :
    (corners size).get (index + 1) = ((corners size).get index).turn := by
  fin_cases index <;> simp [corners, turn, Point.turn, Direction.turn, Vector.get]

-- A sixth of a turn goes from each direction to the next. It takes steps to steps, the sign picking
-- corresponding points at a corner, and every pointer's start to that of the next pointer.
theorem Grid.turn_symmetric :
    (∀ heading : Direction, heading.turn.index = (heading.index + 1) % 6) ∧
      (∀ (grid : Grid) (p : Point) (heading : Direction),
        grid.step p.turn heading.turn = (grid.step p heading).map Point.turn) ∧
      ∀ (size : Nat) (index : Fin 6), (InstructionPointer.corners size).get (index + 1) =
        ((InstructionPointer.corners size).get index).turn :=
  ⟨Direction.index_turn, step_turn, InstructionPointer.corners_turn⟩

end Hexagony
