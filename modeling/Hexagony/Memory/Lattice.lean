import Std.Data.ExtTreeMap
import Hexagony.Plane.Basic

namespace Hexagony

inductive Side where
  | east
  | northEast
  | southEast
  deriving DecidableEq

namespace Side

def direction : Side → Direction
  | east => .east
  | northEast => .northEast
  | southEast => .southEast

def height (side : Side) : Int := -side.direction.vector.r

theorem height_injective {a b : Side} (same : a.height = b.height) : a = b := by
  cases a <;> cases b <;> simp_all [height, direction, Direction.vector]

end Side

structure Edge where
  hexagon : Point
  side : Side
  deriving DecidableEq

namespace Edge

-- Edges are listed by column, then by row, then from the bottom of the hexagon up.
def order : Edge → Edge → Ordering :=
  compareLex (compareOn fun edge : Edge => edge.hexagon.q)
    (compareLex (compareOn fun edge : Edge => edge.hexagon.r)
      (compareOn fun edge : Edge => edge.side.height))

instance : Std.TransCmp order := inferInstanceAs (Std.TransCmp (compareLex _ (compareLex _ _)))

theorem eq_of_order {a b : Edge} (tied : order a b = .eq) : a = b := by
  simp only [order, compareLex, compareOn, Ordering.then_eq_eq, Std.LawfulEqCmp.compare_eq_iff_eq]
    at tied
  obtain ⟨sameQ, sameR, sameHeight⟩ := tied
  obtain ⟨hexagon, side⟩ := a
  have sameHexagon := Point.ext sameQ sameR
  have sameSide := Side.height_injective sameHeight
  simp_all

instance : Std.LawfulEqCmp order where
  compare_self := Std.ReflCmp.compare_self
  eq_of_compare := eq_of_order

end Edge

-- The memory pointer stands on an edge and looks along it, clockwise or not.
structure MemoryPointer where
  edge : Edge := ⟨Point.origin, .east⟩
  clockwise : Bool := false
  deriving DecidableEq

namespace MemoryPointer

def left (pointer : MemoryPointer) : MemoryPointer :=
  let hexagon := pointer.edge.hexagon
  match pointer.edge.side, pointer.clockwise with
  | .northEast, true => ⟨⟨hexagon + ⟨1, -1⟩, .southEast⟩, false⟩
  | .northEast, false => ⟨⟨hexagon + ⟨0, -1⟩, .southEast⟩, true⟩
  | .east, true => ⟨⟨hexagon + ⟨0, 1⟩, .northEast⟩, true⟩
  | .east, false => ⟨⟨hexagon, .northEast⟩, false⟩
  | .southEast, true => ⟨⟨hexagon + ⟨-1, 1⟩, .east⟩, true⟩
  | .southEast, false => ⟨⟨hexagon, .east⟩, false⟩

def right (pointer : MemoryPointer) : MemoryPointer :=
  let hexagon := pointer.edge.hexagon
  match pointer.edge.side, pointer.clockwise with
  | .northEast, true => ⟨⟨hexagon, .east⟩, true⟩
  | .northEast, false => ⟨⟨hexagon + ⟨0, -1⟩, .east⟩, false⟩
  | .east, true => ⟨⟨hexagon, .southEast⟩, true⟩
  | .east, false => ⟨⟨hexagon + ⟨1, -1⟩, .southEast⟩, false⟩
  | .southEast, true => ⟨⟨hexagon + ⟨-1, 1⟩, .northEast⟩, false⟩
  | .southEast, false => ⟨⟨hexagon + ⟨0, 1⟩, .northEast⟩, true⟩

def reverse (pointer : MemoryPointer) : MemoryPointer :=
  {pointer with clockwise := !pointer.clockwise}

end MemoryPointer
end Hexagony
