import Hexagony.Plane.Basic
import Hexagony.Grid.Basic

namespace Hexagony

structure InstructionPointer where
  point : Point
  heading : Direction
  deriving DecidableEq

namespace InstructionPointer

def corners (size : Nat) : Vector InstructionPointer 6 :=
  let reach : Int := max size 1 - 1
  #v[⟨⟨0, -reach⟩, .east⟩, ⟨⟨reach, -reach⟩, .southEast⟩, ⟨⟨reach, 0⟩, .southWest⟩,
    ⟨⟨0, reach⟩, .west⟩, ⟨⟨-reach, reach⟩, .northWest⟩, ⟨⟨-reach, 0⟩, .northEast⟩]

end InstructionPointer

inductive Wrap where
  | fixed (point : Point)
  | corner (positive nonPositive : Point)
  deriving DecidableEq

namespace Wrap

def resolve (wrap : Wrap) (isPositive : Bool) : Point :=
  match wrap with
  | fixed point => point
  | corner positive nonPositive => if isPositive then positive else nonPositive

end Wrap

namespace Grid

def acrossR (p : Point) : Point := ⟨p.q + p.r, -p.r⟩

def acrossQ (p : Point) : Point := ⟨-p.q, p.q + p.r⟩

def acrossY (p : Point) : Point := ⟨-p.r, -p.q⟩

def beyond (grid : Grid) (coordinate : Int) : Bool := grid.size ≤ coordinate.natAbs

def wrap (grid : Grid) (moved : Point) (heading : Direction) : Wrap :=
  if grid.size = 1 then .fixed Point.origin
  else if grid.contains moved then .fixed moved
  else
    let exit := moved - heading.vector
    match grid.beyond moved.q, grid.beyond moved.y, grid.beyond moved.r with
    | false, false, true => .fixed (acrossR exit)
    | true, false, false => .fixed (acrossQ exit)
    | false, true, false => .fixed (acrossY exit)
    | true, true, false => .corner (acrossQ exit) (acrossY exit)
    | true, false, true => .corner (acrossR exit) (acrossQ exit)
    | false, true, true => .corner (acrossY exit) (acrossR exit)
    -- No single move leaves across all three pairs of sides, or across none and is outside.
    | true, true, true | false, false, false => .fixed exit

def step (grid : Grid) (p : Point) (heading : Direction) : Wrap :=
  grid.wrap (p + heading.vector) heading

end Grid
end Hexagony
