import Hexagony.Grid.Shape

namespace Hexagony

structure Grid where
  size : Nat
  cells : Array Char
  rowOffsets : Array Nat
  size_pos : 0 < size
  cells_size : cells.size = Shape.total size
  rowOffsets_eq : rowOffsets = Shape.rowOffsets size
  deriving DecidableEq

namespace Grid

def filler : Char := '.'

def ignored : List Char := [' ', '\t', '\n', '\x0b', '\x0c', '\r', '\x60']

def isIgnored (char : Char) : Bool := ignored.contains char

def strip (text : String) : List Char := text.toList.filter fun char => !isIgnored char

-- A hexagon of no-ops; its side is at least one.
def blank (size : Nat) : Grid where
  size := max size 1
  cells := Array.replicate (Shape.total (max size 1)) filler
  rowOffsets := Shape.rowOffsets (max size 1)
  size_pos := by omega
  cells_size := by simp
  rowOffsets_eq := rfl

-- Writes characters over the first cells; characters beyond the last cell are dropped.
def refill (grid : Grid) (chars : List Char) : Grid where
  size := grid.size
  cells := (chars.take grid.cells.size ++ grid.cells.toList.drop chars.length).toArray
  rowOffsets := grid.rowOffsets
  size_pos := grid.size_pos
  rowOffsets_eq := grid.rowOffsets_eq
  cells_size := by
    rw [← grid.cells_size]
    simp only [List.size_toArray, List.length_append, List.length_take, List.length_drop,
      Array.length_toList]
    omega

def parse (text : String) : Grid :=
  let chars := strip text
  (blank (Shape.fit chars.length)).refill chars

def contains (grid : Grid) (p : Point) : Bool := Shape.contains grid.size p

def rowStart (grid : Grid) (row : Nat) : Nat := grid.rowOffsets.getD row 0

def indexOf? (grid : Grid) (p : Point) : Option Nat :=
  if grid.contains p then
    some (grid.rowStart (Shape.rowOf grid.size p) + Shape.columnOf grid.size p)
  else none

-- The point with the given row-major number; its row is the last one that starts no later.
def pointOf? (grid : Grid) (index : Nat) : Option Point :=
  if index < grid.cells.size then
    let row := Shape.partitionPoint (· ≤ index) grid.rowOffsets - 1
    some (Shape.pointAt grid.size row (index - grid.rowStart row))
  else none

def points (grid : Grid) : List Point := (List.range grid.cells.size).filterMap grid.pointOf?

def get (grid : Grid) (p : Point) : Char :=
  match grid.indexOf? p with
  | some index => grid.cells.getD index filler
  | none => filler

def cellText (grid : Grid) : String := String.ofList grid.cells.toList

def row (grid : Grid) (index : Nat) : List Char :=
  (grid.cells.toList.take (grid.rowStart (index + 1))).drop (grid.rowStart index)

def rows (grid : Grid) : List (List Char) :=
  (List.range (Shape.rowCount grid.size)).map grid.row

def indent (grid : Grid) (line : List Char) : List Char :=
  List.replicate (2 * grid.size - line.length) ' '

def spread (line : List Char) : List Char := line.intersperse ' '

def lines (grid : Grid) : List (List Char) :=
  grid.rows.map fun line => grid.indent line ++ spread line

def text (grid : Grid) : String := String.ofList (['\n'].intercalate grid.lines)

def surveyLine (grid : Grid) (index : Nat) : String :=
  let line := grid.row index
  let margin := String.ofList (grid.indent line)
  let first : Int := max (1 - (grid.size : Int)) (-(index : Int))
  let last : Int := first + line.length - 1
  let r : Int := index - grid.size + 1
  margin ++ String.ofList (spread line) ++ margin ++ "    Q: [" ++ Text.column 3 first ++ "," ++
    Text.column 3 last ++ "], R: " ++ Text.column 2 r

def surveyText (grid : Grid) : String :=
  "\n".intercalate ((List.range (Shape.rowCount grid.size)).map grid.surveyLine)

end Grid
end Hexagony
