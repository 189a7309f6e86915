import Hexagony.Memory.Lattice

namespace Hexagony

structure Memory where
  edges : Std.ExtTreeMap Edge Int64 Edge.order := ∅
  pointer : MemoryPointer := {}
  deriving DecidableEq

namespace Memory

def read (memory : Memory) (edge : Edge) : Int64 := memory.edges.getD edge 0

def get (memory : Memory) : Int64 := memory.read memory.pointer.edge

def set (memory : Memory) (value : Int64) : Memory :=
  {memory with edges := memory.edges.insert memory.pointer.edge value}

def isPositive (memory : Memory) : Bool := 0 < memory.get

def getLeft (memory : Memory) : Int64 := memory.read memory.pointer.left.edge

def getRight (memory : Memory) : Int64 := memory.read memory.pointer.right.edge

def moveLeft (memory : Memory) : Memory := {memory with pointer := memory.pointer.left}

def moveRight (memory : Memory) : Memory := {memory with pointer := memory.pointer.right}

def reverse (memory : Memory) : Memory := {memory with pointer := memory.pointer.reverse}

-- Steps back from a left move: turn around, go right, turn around.
def backLeft (memory : Memory) : Memory := memory.reverse.moveRight.reverse

def backRight (memory : Memory) : Memory := memory.reverse.moveLeft.reverse

def size (memory : Memory) : Nat := memory.edges.size

def heading : String :=
  "Memory (values are stored on the E, NE, and SE edges of the hexagons indicated by the coordinates):"

def edgeLine (active edge : Edge) (value : Int64) : String :=
  edge.hexagon.text ++ " " ++ edge.side.direction.label ++ ": " ++ Text.column 6 value.toInt ++
    (if edge = active then " (active)" else "")

def edgeLines (memory : Memory) : List String :=
  memory.edges.toList.map fun (edge, value) => edgeLine memory.pointer.edge edge value

def text (memory : Memory) : String :=
  let pointer := memory.pointer
  "\n".intercalate <|
    [heading] ++ memory.edgeLines ++
      ["Pointer:", pointer.edge.hexagon.text ++ " " ++ pointer.edge.side.direction.label,
        "Clockwise: " ++ toString pointer.clockwise]

end Memory
end Hexagony
