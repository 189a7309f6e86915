import Hexagony.Plane.Basic

namespace Hexagony.Shape

-- Number of cells of a hexagon. Side zero counts one cell, like side one.
def cellCount (size : Nat) : Nat := 3 * size * (size - 1) + 1

def rowCount (size : Nat) : Nat := 2 * size - 1

def rowLength (size row : Nat) : Nat := 2 * size - 1 - ((size : Int) - 1 - row).natAbs

def pushRow (size : Nat) (starts : Array Nat × Nat) (row : Nat) : Array Nat × Nat :=
  (starts.1.push starts.2, starts.2 + rowLength size row)

def rowStarts (size rows : Nat) : Array Nat × Nat := (List.range rows).foldl (pushRow size) (#[], 0)

def rowOffsets (size : Nat) : Array Nat :=
  let starts := rowStarts size (rowCount size)
  starts.1.push starts.2

def total (size : Nat) : Nat := (rowStarts size (rowCount size)).2

def contains (size : Nat) (p : Point) : Bool :=
  p.q.natAbs < size && p.r.natAbs < size && p.y.natAbs < size

def rowShift (size row : Nat) : Nat := min row (size - 1)

def rowOf (size : Nat) (p : Point) : Nat := (p.r + size - 1).toNat

def columnOf (size : Nat) (p : Point) : Nat := (p.q + rowShift size (rowOf size p)).toNat

def pointAt (size row column : Nat) : Point := ⟨column - rowShift size row, row - size + 1⟩

def partitionIn (holds : Nat → Bool) (table : Array Nat) (low high : Nat)
    (inside : high ≤ table.size) : Nat :=
  if window : low < high then
    let middle := low + (high - low) / 2
    have within : middle < table.size := by omega
    if holds table[middle] then partitionIn holds table (middle + 1) high inside
    else partitionIn holds table low middle (Nat.le_of_lt within)
  else low
termination_by high - low

-- How many entries a table begins with that have a property which none has after the first without.
def partitionPoint (holds : Nat → Bool) (table : Array Nat) : Nat :=
  partitionIn holds table 0 table.size (Nat.le_refl _)

def fitFrom (count : Nat) : Nat → Nat → Nat
  | 0, size => size
  | fuel + 1, size => if cellCount size < count then fitFrom count fuel (size + 1) else size

-- Side `count` has at least `count` cells, so the search ends before its steps run out.
def fit (count : Nat) : Nat := fitFrom count count 1

end Hexagony.Shape
