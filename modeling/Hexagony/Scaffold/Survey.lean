import Hexagony.Scaffold.Cursor
import Hexagony.Scaffold.Basic

namespace Hexagony

abbrev Places := Std.ExtTreeMap Cursor Location Cursor.order

structure Survey where
  placed : Places := ∅
  segments : Array (Segment Point Cursor) := #[]
  pending : List Cursor := []

namespace Survey

-- Follows a cursor to the end of its segment. A cursor that passes a cell shares its location
-- with the command or ending that comes next.
def follow (grid : Grid) (segment : Nat) :
    Nat → Places → Array Point → Cursor → Places × Segment Point Cursor
  | 0, placed, commands, cursor => (placed, ⟨commands.toList, .jump cursor⟩)
  | fuel + 1, placed, commands, cursor =>
    if placed.contains cursor then (placed, ⟨commands.toList, .jump cursor⟩)
    else
      let placed := placed.insert cursor ⟨segment, commands.size⟩
      match cursor.deed grid with
      | .exit => (placed, ⟨commands.toList, .exit⟩)
      | .pass (.go next) => follow grid segment fuel placed commands next
      | .pass (.fork positive nonPositive) =>
        (placed, ⟨commands.toList, .branch positive nonPositive⟩)
      | .command (.go next) => follow grid segment fuel placed (commands.push cursor.point) next
      | .command (.fork positive nonPositive) =>
        (placed, ⟨(commands.push cursor.point).toList, .branch positive nonPositive⟩)

def forked : Ending Cursor → List Cursor
  | .branch positive nonPositive => [positive, nonPositive]
  | .jump _ | .exit => []

def cursorBound (grid : Grid) : Nat := 36 * Shape.cellCount grid.size

def advance (grid : Grid) (survey : Survey) : Survey :=
  match survey.pending with
  | [] => survey
  | cursor :: rest =>
    if survey.placed.contains cursor then {survey with pending := rest}
    else
      let (placed, segment) :=
        follow grid survey.segments.size (cursorBound grid + 1) survey.placed #[] cursor
      {placed
       segments := survey.segments.push segment
       pending := forked segment.ending ++ rest}

def explore (grid : Grid) : Nat → Survey → Survey
  | 0, survey => survey
  | fuel + 1, survey =>
    if survey.pending.isEmpty then survey else explore grid fuel (survey.advance grid)

-- The whole survey. Every segment places a cursor that had no place and adds at most two pending
-- ones, so no more cursors are taken up than two for each cursor there is, and the first.
def ofGrid (grid : Grid) : Survey :=
  explore grid (2 * cursorBound grid + 1) {pending := [Cursor.start grid]}

def distinct {α : Type} [BEq α] : List α → List α
  | [] => []
  | a :: rest => a :: (distinct rest).filter fun b => !(b == a)

def slots (survey : Survey) : List Point :=
  distinct (survey.segments.toList.flatMap Segment.commands)

def located (survey : Survey) : List (Segment Nat Location) :=
  let slots := survey.slots
  survey.segments.toList.map fun segment =>
    {commands := segment.commands.map slots.idxOf
     ending := segment.ending.map fun cursor => survey.placed.getD cursor default}

end Survey
end Hexagony
