import Hexagony.Text

namespace Hexagony

structure Point where
  q : Int
  r : Int
  deriving DecidableEq

namespace Point

def origin : Point := ⟨0, 0⟩

def y (p : Point) : Int := -p.q - p.r

instance : Add Point := ⟨fun a b => ⟨a.q + b.q, a.r + b.r⟩⟩
instance : Sub Point := ⟨fun a b => ⟨a.q - b.q, a.r - b.r⟩⟩

@[simp] theorem add_q (a b : Point) : (a + b).q = a.q + b.q := rfl
@[simp] theorem add_r (a b : Point) : (a + b).r = a.r + b.r := rfl
@[simp] theorem sub_q (a b : Point) : (a - b).q = a.q - b.q := rfl
@[simp] theorem sub_r (a b : Point) : (a - b).r = a.r - b.r := rfl

@[ext] theorem ext {a b : Point} (sameQ : a.q = b.q) (sameR : a.r = b.r) : a = b := by
  cases a; cases b; simp_all

def order : Point → Point → Ordering :=
  compareLex (compareOn Point.q) (compareOn Point.r)

def text (p : Point) : String :=
  "(Q: " ++ Text.column 3 p.q ++ ", R: " ++ Text.column 3 p.r ++ ")"

end Point
inductive Direction where
  | east
  | southEast
  | southWest
  | west
  | northWest
  | northEast
  deriving DecidableEq

namespace Direction

def all : List Direction := [east, southEast, southWest, west, northWest, northEast]

def index : Direction → Nat
  | east => 0
  | southEast => 1
  | southWest => 2
  | west => 3
  | northWest => 4
  | northEast => 5

theorem index_injective {a b : Direction} (same : a.index = b.index) : a = b := by
  cases a <;> cases b <;> simp_all [index]

def vector : Direction → Point
  | east => ⟨1, 0⟩
  | southEast => ⟨0, 1⟩
  | southWest => ⟨-1, 1⟩
  | west => ⟨-1, 0⟩
  | northWest => ⟨0, -1⟩
  | northEast => ⟨1, -1⟩

def name : Direction → String
  | east => "E"
  | southEast => "SE"
  | southWest => "SW"
  | west => "W"
  | northWest => "NW"
  | northEast => "NE"

def ofName? (text : String) : Option Direction := all.find? (·.name == text)

def label (d : Direction) : String := Text.padLeft 2 d.name

end Direction
end Hexagony
