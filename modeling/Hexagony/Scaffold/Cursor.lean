import Std.Data.ExtTreeMap
import Hexagony.Opcode
import Hexagony.Grid.Wrap

namespace Hexagony

inductive Sign where
  | unknown
  | positive
  | nonPositive
  deriving DecidableEq

namespace Sign

def ofPositive (isPositive : Bool) : Sign := if isPositive then positive else nonPositive

def known? : Sign → Option Bool
  | unknown => none
  | positive => some true
  | nonPositive => some false

def rank : Sign → Nat
  | unknown => 0
  | positive => 1
  | nonPositive => 2

theorem rank_injective {a b : Sign} (same : a.rank = b.rank) : a = b := by
  cases a <;> cases b <;> simp_all [rank]

end Sign

-- A pointer about to execute a cell, or to pass over it.
structure Cursor where
  point : Point
  heading : Direction
  sign : Sign
  skipping : Bool
  deriving DecidableEq

inductive Move where
  | go (next : Cursor)
  | fork (positive nonPositive : Cursor)
  deriving DecidableEq

inductive Deed where
  | pass (move : Move)
  | command (move : Move)
  | exit
  deriving DecidableEq

namespace Cursor

-- Any total order will do: it only serves to look cursors up.
def order : Cursor → Cursor → Ordering :=
  compareLex (compareOn fun cursor : Cursor => cursor.point.q)
    (compareLex (compareOn fun cursor : Cursor => cursor.point.r)
      (compareLex (compareOn fun cursor : Cursor => cursor.heading.index)
        (compareLex (compareOn fun cursor : Cursor => cursor.sign.rank)
          (compareOn fun cursor : Cursor => cursor.skipping))))

instance : Std.TransCmp order :=
  inferInstanceAs (Std.TransCmp (compareLex _ (compareLex _ (compareLex _ (compareLex _ _)))))

theorem eq_of_order {a b : Cursor} (tied : order a b = .eq) : a = b := by
  simp only [order, compareLex, compareOn, Ordering.then_eq_eq, Std.LawfulEqCmp.compare_eq_iff_eq]
    at tied
  obtain ⟨sameQ, sameR, sameHeading, sameSign, sameSkipping⟩ := tied
  obtain ⟨point, heading, sign, skipping⟩ := a
  have samePoint := Point.ext sameQ sameR
  have sameHeading := Direction.index_injective sameHeading
  have sameSign := Sign.rank_injective sameSign
  simp_all

instance : Std.LawfulEqCmp order where
  compare_self := Std.ReflCmp.compare_self
  eq_of_compare := eq_of_order

def start (grid : Grid) : Cursor :=
  let pointer := (InstructionPointer.corners grid.size)[0]
  ⟨pointer.point, pointer.heading, .nonPositive, false⟩

-- One move. A corner is a fork where the sign is unknown, and on each way the sign is known.
def advance (grid : Grid) (point : Point) (heading : Direction) (sign : Sign) (skipping : Bool) :
    Move :=
  match grid.step point heading, sign.known? with
  | .fixed next, _ => .go ⟨next, heading, sign, skipping⟩
  | .corner positive nonPositive, some isPositive =>
    .go ⟨if isPositive then positive else nonPositive, heading, sign, skipping⟩
  | .corner positive nonPositive, none =>
    .fork ⟨positive, heading, .positive, skipping⟩ ⟨nonPositive, heading, .nonPositive, skipping⟩

def settle (grid : Grid) (point : Point) (heading : Direction) (isPositive : Bool) : Cursor :=
  ⟨(grid.step point heading).resolve isPositive, heading, .ofPositive isPositive, false⟩

def reflect (grid : Grid) (cursor : Cursor) (mirror : Mirror) : Move :=
  let positive := mirror.reflect true cursor.heading
  let nonPositive := mirror.reflect false cursor.heading
  if positive = nonPositive then advance grid cursor.point positive cursor.sign false
  else
    match cursor.sign.known? with
    | some true => advance grid cursor.point positive cursor.sign false
    | some false => advance grid cursor.point nonPositive cursor.sign false
    | none =>
      .fork (settle grid cursor.point positive true) (settle grid cursor.point nonPositive false)

def deed (grid : Grid) (cursor : Cursor) : Deed :=
  if cursor.skipping then .pass (advance grid cursor.point cursor.heading cursor.sign false)
  else
    match Opcode.decode (grid.get cursor.point) with
    | .nop => .pass (advance grid cursor.point cursor.heading cursor.sign false)
    | .terminate => .exit
    | .skip => .pass (advance grid cursor.point cursor.heading cursor.sign true)
    | .mirror mirror => .pass (cursor.reflect grid mirror)
    | _ => .command (advance grid cursor.point cursor.heading .unknown false)

end Cursor
end Hexagony
