import Hexagony.Scaffold.Basic

namespace Hexagony

namespace Rotation

def rotate {α : Type} (body : List α) (start : Nat) : List α := body.drop start ++ body.take start

def rotate? {α : Type} (body : List α) (start : Nat) : Option (List α) :=
  if body.isEmpty || start ≤ body.length then some (rotate body start) else none

def least (body : List Nat) : Nat :=
  (List.range body.length).foldl
    (fun best start => if rotate body start < rotate body best then start else best) 0

def canonical (body : List Nat) : List Nat := rotate body (least body)

end Rotation

namespace Layout

structure Cycle where
  start : Nat
  body : List Nat
  deriving DecidableEq

namespace Cycle

def canonicalBody (cycle : Cycle) : List Nat := Rotation.canonical cycle.body

-- Which command of the canonical body comes next at an offset of the segment. From the jump on,
-- that is the command at the start.
def phase (cycle : Cycle) (offset : Nat) : Nat :=
  let length := cycle.body.length
  if length = 0 then 0
  else
    let position := if cycle.start + length ≤ offset then 0 else offset - cycle.start
    (position + length - Rotation.least cycle.body) % length

def mainPhase (cycle : Cycle) : Nat := cycle.phase cycle.start

-- The phases that need a node, in the order of their nodes: the main one, then the others at
-- which the loop is entered from elsewhere.
def phases (cycle : Cycle) (entries : List Nat) : List Nat :=
  let entered := (entries.filter (cycle.start ≤ ·)).map cycle.phase
  let others := (List.range cycle.body.length).filter (· != cycle.mainPhase)
  cycle.mainPhase :: others.filter entered.contains

end Cycle

def cycle? (index : Nat) (segment : Segment Nat Location) : Option Cycle :=
  match segment.ending with
  | .jump target =>
    if target.segment = index then some ⟨target.offset, segment.commands.drop target.offset⟩
    else none
  | .branch .. | .exit => none

def references (segments : List (Segment Nat Location)) : List Location :=
  segments.zipIdx.flatMap fun (segment, index) => ⟨index, 0⟩ :: segment.ending.targets

structure Block where
  base : Nat
  segment : Segment Nat Location
  cycle : Option Cycle
  phases : List Nat
  deriving DecidableEq

namespace Block

def size (block : Block) : Nat :=
  match block.cycle with
  | none => block.segment.commands.length + 1
  | some cycle => cycle.start + block.phases.length

def nodeOf (block : Block) (offset : Nat) : Nat :=
  match block.cycle with
  | none => block.base + offset
  | some cycle =>
    if cycle.start ≤ offset then
      block.base + cycle.start + block.phases.idxOf (cycle.phase offset)
    else block.base + offset

def endingNode : Ending Nat → Node
  | .jump target => .jump target
  | .branch positive nonPositive => .branch positive nonPositive
  | .exit => .exit

def nodes (block : Block) (target : Location → Nat) : List Node :=
  let segment := block.segment
  match block.cycle with
  | none => segment.commands.map .command ++ [endingNode (segment.ending.map target)]
  | some cycle =>
    (segment.commands.take cycle.start).map .command ++
      block.phases.map (.loop cycle.canonicalBody ·)

end Block

def block (references : List Location) (index base : Nat) (segment : Segment Nat Location) :
    Block :=
  let cycle := cycle? index segment
  let entries := (references.filter (·.segment = index)).map Location.offset
  {base, segment, cycle, phases := (cycle.map (·.phases entries)).getD []}

def blocksFrom (references : List Location) :
    Nat → Nat → List (Segment Nat Location) → List Block
  | _, _, [] => []
  | index, base, segment :: rest =>
    let block := block references index base segment
    block :: blocksFrom references (index + 1) (base + block.size) rest

def nodesWith (references : List Location) (segments : List (Segment Nat Location)) : List Node :=
  let blocks := blocksFrom references 0 0 segments
  let table := blocks.toArray
  let target (location : Location) : Nat :=
    (table[location.segment]?.map (·.nodeOf location.offset)).getD 0
  blocks.flatMap (·.nodes target)

def nodes (segments : List (Segment Nat Location)) : List Node :=
  nodesWith (references segments) segments

end Layout
end Hexagony
