import Mathlib.Data.Int.Init
import Hexagony.Machine.Basic
import Hexagony.Proofs.Grid.Symmetry

namespace Hexagony

theorem Direction.vector_injective {a b : Direction} (same : a.vector = b.vector) : a = b := by
  cases a <;> cases b <;> simp_all [vector]

namespace Point

theorem add_left_cancel {a b c : Point} (same : a + b = a + c) : b = c := by
  have sameQ := congrArg Point.q same
  have sameR := congrArg Point.r same
  simp only [add_q, add_r] at sameQ sameR
  exact Point.ext (by omega) (by omega)

-- The hexagon that two neighbours have in common ahead of someone who goes between them, with the
-- first on the left. The three of them take turns in this.
def apex (a b : Point) : Point := b + (a - b).turn

theorem apex_apex_left (a b : Point) : apex (apex a b) a = b := by
  apply Point.ext <;> simp only [apex, turn, add_q, add_r, sub_q, sub_r] <;> omega

theorem apex_apex_right (a b : Point) : apex b (apex a b) = a := by
  apply Point.ext <;> simp only [apex, turn, add_q, add_r, sub_q, sub_r] <;> omega

theorem apex_three_left (a b : Point) : apex a (apex a (apex a b)) = a + a - b := by
  apply Point.ext <;> simp only [apex, turn, add_q, add_r, sub_q, sub_r] <;> omega

theorem apex_three_right (a b : Point) : apex (apex (apex a b) b) b = b + b - a := by
  apply Point.ext <;> simp only [apex, turn, add_q, add_r, sub_q, sub_r] <;> omega

theorem double_sub_double_sub (a b : Point) : a + a - (a + a - b) = b := by
  apply Point.ext <;> simp

end Point

namespace MemoryPointer
variable {pointer other : MemoryPointer}

-- The hexagons to the left and to the right of the pointer as it looks along its edge.
def onLeft (pointer : MemoryPointer) : Point :=
  if pointer.clockwise then pointer.edge.hexagon + pointer.edge.side.direction.vector
  else pointer.edge.hexagon

def onRight (pointer : MemoryPointer) : Point :=
  if pointer.clockwise then pointer.edge.hexagon
  else pointer.edge.hexagon + pointer.edge.side.direction.vector

def ahead (pointer : MemoryPointer) : Point := Point.apex pointer.onLeft pointer.onRight

def across (pointer : MemoryPointer) : Direction :=
  if pointer.clockwise then pointer.edge.side.direction.opposite else pointer.edge.side.direction

theorem onRight_eq (pointer : MemoryPointer) :
    pointer.onRight = pointer.onLeft + pointer.across.vector := by
  obtain ⟨⟨hexagon, side⟩, clockwise⟩ := pointer
  cases side <;> cases clockwise <;> apply Point.ext <;>
    simp [onRight, onLeft, across, Side.direction, Direction.opposite, Direction.vector]

theorem eq_of_across (same : pointer.across = other.across) :
    pointer.edge.side = other.edge.side ∧ pointer.clockwise = other.clockwise := by
  obtain ⟨⟨hexagon, side⟩, clockwise⟩ := pointer
  obtain ⟨⟨otherHexagon, otherSide⟩, otherClockwise⟩ := other
  cases side <;> cases clockwise <;> cases otherSide <;> cases otherClockwise <;>
    simp_all [across, Side.direction, Direction.opposite]

theorem eq_of_sides (sameLeft : pointer.onLeft = other.onLeft)
    (sameRight : pointer.onRight = other.onRight) : pointer = other := by
  rw [onRight_eq, onRight_eq, sameLeft] at sameRight
  obtain ⟨sameSide, sameSense⟩ :=
    eq_of_across (Direction.vector_injective (Point.add_left_cancel sameRight))
  obtain ⟨⟨hexagon, side⟩, clockwise⟩ := pointer
  obtain ⟨⟨otherHexagon, otherSide⟩, otherClockwise⟩ := other
  cases sameSide
  cases sameSense
  have sameHexagon : hexagon = otherHexagon := by
    cases clockwise with
    | true =>
      have taken := congrArg (· - side.direction.vector) sameLeft
      exact (Grid.moved_sub_vector _ _).symm.trans (taken.trans (Grid.moved_sub_vector _ _))
    | false => exact sameLeft
  rw [sameHexagon]

section Moves

-- A move to the left goes around the hexagon on the left, and one to the right around that on the
-- right.
@[simp] theorem onLeft_left (pointer : MemoryPointer) : pointer.left.onLeft = pointer.onLeft := by
  obtain ⟨⟨hexagon, side⟩, clockwise⟩ := pointer
  cases side <;> cases clockwise <;> apply Point.ext <;>
    simp [left, onLeft, Side.direction, Direction.vector]

@[simp] theorem onRight_left (pointer : MemoryPointer) : pointer.left.onRight = pointer.ahead := by
  obtain ⟨⟨hexagon, side⟩, clockwise⟩ := pointer
  cases side <;> cases clockwise <;> apply Point.ext <;>
    simp [left, onLeft, onRight, ahead, Side.direction, Direction.vector, Point.apex, Point.turn]

@[simp] theorem onLeft_right (pointer : MemoryPointer) : pointer.right.onLeft = pointer.ahead := by
  obtain ⟨⟨hexagon, side⟩, clockwise⟩ := pointer
  cases side <;> cases clockwise <;> apply Point.ext <;>
    simp [right, onLeft, onRight, ahead, Side.direction, Direction.vector, Point.apex, Point.turn]

@[simp] theorem onRight_right (pointer : MemoryPointer) :
    pointer.right.onRight = pointer.onRight := by
  obtain ⟨⟨hexagon, side⟩, clockwise⟩ := pointer
  cases side <;> cases clockwise <;> apply Point.ext <;>
    simp [right, onRight, Side.direction, Direction.vector]

@[simp] theorem onLeft_reverse (pointer : MemoryPointer) :
    pointer.reverse.onLeft = pointer.onRight := by
  cases clockwise : pointer.clockwise <;> simp [reverse, onLeft, onRight, clockwise]

@[simp] theorem onRight_reverse (pointer : MemoryPointer) :
    pointer.reverse.onRight = pointer.onLeft := by
  cases clockwise : pointer.clockwise <;> simp [reverse, onLeft, onRight, clockwise]

theorem reverse_reverse (pointer : MemoryPointer) : pointer.reverse.reverse = pointer := by
  apply eq_of_sides <;> simp

-- Three edges meet at the end of an edge: the second on the left is the first on the right.
theorem left_reverse_left (pointer : MemoryPointer) :
    pointer.left.reverse.left = pointer.right := by
  apply eq_of_sides
  · simp
  · simp [ahead, Point.apex_apex_left]

theorem left_undone (pointer : MemoryPointer) : pointer.left.reverse.right.reverse = pointer := by
  apply eq_of_sides
  · simp
  · simp [ahead, Point.apex_apex_left]

theorem right_undone (pointer : MemoryPointer) : pointer.right.reverse.left.reverse = pointer := by
  apply eq_of_sides
  · simp [ahead, Point.apex_apex_right]
  · simp

theorem reverse_right_undone (pointer : MemoryPointer) :
    pointer.reverse.right.reverse.left = pointer := by
  have undone := congrArg reverse pointer.reverse.right_undone
  rwa [reverse_reverse, reverse_reverse] at undone

theorem reverse_left_undone (pointer : MemoryPointer) :
    pointer.reverse.left.reverse.right = pointer := by
  have undone := congrArg reverse pointer.reverse.left_undone
  rwa [reverse_reverse, reverse_reverse] at undone

theorem onRight_left_three (pointer : MemoryPointer) :
    (left^[3] pointer).onRight = pointer.onLeft + pointer.onLeft - pointer.onRight := by
  simp [ahead, Point.apex_three_left]

theorem onLeft_right_three (pointer : MemoryPointer) :
    (right^[3] pointer).onLeft = pointer.onRight + pointer.onRight - pointer.onLeft := by
  simp [ahead, Point.apex_three_right]

theorem left_six (pointer : MemoryPointer) : left^[6] pointer = pointer := by
  change left^[3] (left^[3] pointer) = pointer
  apply eq_of_sides
  · simp
  · rw [onRight_left_three, onRight_left_three]
    simp [Point.double_sub_double_sub]

theorem right_six (pointer : MemoryPointer) : right^[6] pointer = pointer := by
  change right^[3] (right^[3] pointer) = pointer
  apply eq_of_sides
  · rw [onLeft_right_three, onLeft_right_three]
    simp [Point.double_sub_double_sub]
  · simp

end Moves

inductive Move where
  | left
  | right
  | reverse

def move (pointer : MemoryPointer) : Move → MemoryPointer
  | .left => pointer.left
  | .right => pointer.right
  | .reverse => pointer.reverse

def Reaches (start pointer : MemoryPointer) : Prop :=
  ∃ moves : List Move, moves.foldl move start = pointer

section Reaching
variable {start middle pointer : MemoryPointer}

theorem Reaches.trans (first : Reaches start middle) (second : Reaches middle pointer) :
    Reaches start pointer := by
  obtain ⟨moves, rfl⟩ := first
  obtain ⟨others, rfl⟩ := second
  exact ⟨moves ++ others, List.foldl_append⟩

theorem move_back (pointer : MemoryPointer) (move : Move) :
    Reaches (pointer.move move) pointer := by
  cases move with
  | left => exact ⟨[.reverse, .right, .reverse], pointer.left_undone⟩
  | right => exact ⟨[.reverse, .left, .reverse], pointer.right_undone⟩
  | reverse => exact ⟨[.reverse], pointer.reverse_reverse⟩

theorem Reaches.symm (reaches : Reaches start pointer) : Reaches pointer start := by
  obtain ⟨moves, rfl⟩ := reaches
  induction moves generalizing start with
  | nil => exact ⟨[], rfl⟩
  | cons move rest ih => exact ih.trans (move_back start move)

def eastOf (hexagon : Point) : MemoryPointer := ⟨⟨hexagon, .east⟩, false⟩

theorem eastOf_reaches_east (q r : Int) : Reaches (eastOf ⟨q, r⟩) (eastOf ⟨q + 1, r⟩) := by
  refine ⟨[.right, .right, .right, .reverse], ?_⟩
  change eastOf (⟨q, r⟩ + Direction.northEast.vector + Direction.southEast.vector) =
    eastOf ⟨q + 1, r⟩
  congr 1
  apply Point.ext <;> simp [Direction.vector]

theorem eastOf_reaches_northWest (q r : Int) : Reaches (eastOf ⟨q, r⟩) (eastOf ⟨q, r - 1⟩) := by
  refine ⟨[.left, .left, .reverse, .left], ?_⟩
  change eastOf (⟨q, r⟩ + Direction.northWest.vector) = eastOf ⟨q, r - 1⟩
  congr 1
  apply Point.ext
  · exact Int.add_zero q
  · exact Int.sub_eq_add_neg.symm

theorem eastOf_reaches (hexagon : Point) : Reaches (eastOf Point.origin) (eastOf hexagon) := by
  obtain ⟨q, r⟩ := hexagon
  have along : Reaches (eastOf Point.origin) (eastOf ⟨q, 0⟩) := by
    induction q using Int.induction_on with
    | zero => exact ⟨[], rfl⟩
    | succ n ih => exact ih.trans (eastOf_reaches_east n 0)
    | pred n ih =>
      have back := (eastOf_reaches_east (-n - 1) 0).symm
      rw [Int.sub_add_cancel] at back
      exact ih.trans back
  have athwart : Reaches (eastOf ⟨q, 0⟩) (eastOf ⟨q, r⟩) := by
    induction r using Int.induction_on with
    | zero => exact ⟨[], rfl⟩
    | succ n ih =>
      have back := (eastOf_reaches_northWest q (n + 1)).symm
      rw [Int.add_sub_cancel] at back
      exact ih.trans back
    | pred n ih => exact ih.trans (eastOf_reaches_northWest q (-n))
  exact along.trans athwart

theorem eastOf_reaches_side (hexagon : Point) (side : Side) (clockwise : Bool) :
    Reaches (eastOf hexagon) ⟨⟨hexagon, side⟩, clockwise⟩ := by
  cases side with
  | east =>
    cases clockwise with
    | false => exact ⟨[], rfl⟩
    | true => exact ⟨[.reverse], rfl⟩
  | northEast =>
    cases clockwise with
    | false => exact ⟨[.left], rfl⟩
    | true => exact ⟨[.left, .reverse], rfl⟩
  | southEast =>
    cases clockwise with
    | false => exact ⟨[.reverse, .right, .reverse], rfl⟩
    | true => exact ⟨[.reverse, .right], rfl⟩

theorem reaches_all (pointer : MemoryPointer) : Reaches {} pointer :=
  (eastOf_reaches pointer.edge.hexagon).trans (eastOf_reaches_side _ _ _)

end Reaching
end MemoryPointer

namespace Memory

def move (memory : Memory) : MemoryPointer.Move → Memory
  | .left => memory.moveLeft
  | .right => memory.moveRight
  | .reverse => memory.reverse

def cursor (memory : Memory) : Point × Direction × Bool :=
  (memory.pointer.edge.hexagon, memory.pointer.edge.side.direction, memory.pointer.clockwise)

theorem foldl_move (memory : Memory) (moves : List MemoryPointer.Move) :
    moves.foldl move memory =
      {memory with pointer := moves.foldl MemoryPointer.move memory.pointer} := by
  induction moves generalizing memory with
  | nil => rfl
  | cons first rest ih =>
    rw [List.foldl_cons, List.foldl_cons, ih]
    cases first <;> rfl

theorem exists_cursor_iff (hexagon : Point) (direction : Direction) (clockwise : Bool) :
    (∃ moves : List MemoryPointer.Move,
        (moves.foldl move {}).cursor = (hexagon, direction, clockwise)) ↔
      direction = .east ∨ direction = .northEast ∨ direction = .southEast := by
  constructor
  · rintro ⟨moves, arrived⟩
    have facing : (moves.foldl move {}).pointer.edge.side.direction = direction :=
      congrArg (fun cursor => cursor.2.1) arrived
    rw [← facing]
    cases (moves.foldl move {}).pointer.edge.side <;> simp [Side.direction]
  · intro eastern
    obtain ⟨side, rfl⟩ : ∃ side : Side, side.direction = direction := by
      rcases eastern with rfl | rfl | rfl
      · exact ⟨.east, rfl⟩
      · exact ⟨.northEast, rfl⟩
      · exact ⟨.southEast, rfl⟩
    obtain ⟨moves, arrived⟩ := MemoryPointer.reaches_all ⟨⟨hexagon, side⟩, clockwise⟩
    refine ⟨moves, ?_⟩
    rw [foldl_move, cursor, arrived]

theorem eq_of_pointer (memory : Memory) {pointer : MemoryPointer}
    (same : pointer = memory.pointer) : {memory with pointer} = memory := by
  rw [same]

theorem iterate_pointer {act : Memory → Memory} {step : MemoryPointer → MemoryPointer}
    (acts : ∀ memory : Memory, act memory = {memory with pointer := step memory.pointer})
    (n : Nat) (memory : Memory) :
    act^[n] memory = {memory with pointer := step^[n] memory.pointer} := by
  induction n generalizing memory with
  | zero => rfl
  | succ n ih => rw [Function.iterate_succ_apply, ih, acts, Function.iterate_succ_apply]

theorem moveLeft_six (memory : Memory) : moveLeft^[6] memory = memory :=
  (iterate_pointer (fun _ => rfl) 6 memory).trans
    (eq_of_pointer memory memory.pointer.left_six)

theorem moveRight_six (memory : Memory) : moveRight^[6] memory = memory :=
  (iterate_pointer (fun _ => rfl) 6 memory).trans
    (eq_of_pointer memory memory.pointer.right_six)

theorem moveLeft_reverse_moveLeft (memory : Memory) :
    memory.moveLeft.reverse.moveLeft = memory.moveRight :=
  eq_of_pointer memory.moveRight memory.pointer.left_reverse_left

theorem backLeft_moveLeft (memory : Memory) : memory.moveLeft.backLeft = memory :=
  eq_of_pointer memory memory.pointer.left_undone

theorem moveLeft_backLeft (memory : Memory) : memory.backLeft.moveLeft = memory :=
  eq_of_pointer memory memory.pointer.reverse_right_undone

theorem backRight_moveRight (memory : Memory) : memory.moveRight.backRight = memory :=
  eq_of_pointer memory memory.pointer.right_undone

theorem moveRight_backRight (memory : Memory) : memory.backRight.moveRight = memory :=
  eq_of_pointer memory memory.pointer.reverse_left_undone

end Memory

def Machine.TakenBack (first second : Opcode) : Prop :=
  ∀ machine : Machine, ∃ moved : Machine, machine.execute first = (.proceed, moved) ∧
    moved.memory.edges = machine.memory.edges ∧ moved.execute second = (.proceed, machine)

theorem Machine.takenBack_of_undone {first second : Opcode} {there back : Memory → Memory}
    (goes : ∀ machine : Machine, machine.execute first = machine.remember (there machine.memory))
    (returns : ∀ machine : Machine, machine.execute second = machine.remember (back machine.memory))
    (kept : ∀ memory : Memory, (there memory).edges = memory.edges)
    (undone : ∀ memory : Memory, back (there memory) = memory) : TakenBack first second := by
  intro machine
  refine ⟨_, goes machine, kept machine.memory, ?_⟩
  rw [returns]
  change machine.remember (back (there machine.memory)) = _
  rw [undone]
  rfl

-- The memory pointer can be moved to every side that has a name, in either sense, and nowhere else.
-- Six moves to the same side lead around a hexagon, three edges meet at every end, and each of the
-- moving instructions is taken back by its partner. No move touches a word.
theorem Memory.moves_realise_lattice :
    (∀ (hexagon : Point) (direction : Direction) (clockwise : Bool),
      (∃ moves : List MemoryPointer.Move,
          (moves.foldl move {}).cursor = (hexagon, direction, clockwise)) ↔
        direction = .east ∨ direction = .northEast ∨ direction = .southEast) ∧
      (∀ memory : Memory, moveLeft^[6] memory = memory ∧ moveRight^[6] memory = memory ∧
        memory.moveLeft.reverse.moveLeft = memory.moveRight ∧
        ∀ way, (memory.move way).edges = memory.edges) ∧
      Machine.TakenBack (.decode '\x7b') (.decode '\x22') ∧
      Machine.TakenBack (.decode '\x22') (.decode '\x7b') ∧
      Machine.TakenBack (.decode '\x7d') (.decode '\x27') ∧
      Machine.TakenBack (.decode '\x27') (.decode '\x7d') := by
  refine ⟨exists_cursor_iff, ?_, ?_, ?_, ?_, ?_⟩
  · intro memory
    refine ⟨memory.moveLeft_six, memory.moveRight_six, memory.moveLeft_reverse_moveLeft, ?_⟩
    intro way
    cases way <;> rfl
  · exact Machine.takenBack_of_undone (fun _ => rfl) (fun _ => rfl) (fun _ => rfl) backLeft_moveLeft
  · exact Machine.takenBack_of_undone (fun _ => rfl) (fun _ => rfl) (fun _ => rfl) moveLeft_backLeft
  · exact Machine.takenBack_of_undone (fun _ => rfl) (fun _ => rfl) (fun _ => rfl)
      backRight_moveRight
  · exact Machine.takenBack_of_undone (fun _ => rfl) (fun _ => rfl) (fun _ => rfl)
      moveRight_backRight

end Hexagony
