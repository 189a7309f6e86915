import Hexagony.Opcode
import Hexagony.Scaffold.Basic
import Hexagony.Scaffold.Layout
import Hexagony.Scaffold.Survey

namespace Hexagony

namespace Scaffold

def ofSurvey (grid : Grid) (survey : Survey) : Scaffold where
  nodes := Layout.nodes survey.located
  slots := survey.slots.map fun position => {position, cell := grid.get position}

def ofGrid (grid : Grid) : Scaffold := ofSurvey grid (Survey.ofGrid grid)

def compileLog (grid : Grid) : List Log.Entry :=
  let survey := Survey.ofGrid grid
  let scaffold := ofSurvey grid survey
  [{level := .debug
    message :=
      "compiled " ++ toString survey.placed.size ++ " cursor states into " ++
        toString survey.segments.size ++ " segments, " ++ toString scaffold.nodes.length ++
        " nodes, " ++ toString scaffold.slots.length ++ " slots"}]

end Scaffold

inductive FillError where
  | missing (slot : Nat)
  | unsupported (slot : Nat) (char : Char)
  deriving DecidableEq

namespace Slot

-- The instruction of a slot. One that steers pointers would change the control flow.
def command (slot : Nat) (char : Char) : Except FillError Opcode :=
  let opcode := Opcode.decode char
  if opcode.isControl then .error (.unsupported slot char) else .ok opcode

def commandsFrom (slot : Nat) : List Slot → List Char → Except FillError (List Opcode)
  | [], _ => .ok []
  | head :: rest, fills =>
    match head.instruction?, fills with
    | some char, fills => do
      let first ← command slot char
      let others ← commandsFrom (slot + 1) rest fills
      return first :: others
    | none, [] => .error (.missing slot)
    | none, char :: fills => do
      let first ← command slot char
      let others ← commandsFrom (slot + 1) rest fills
      return first :: others

end Slot

def Scaffold.commands (scaffold : Scaffold) (fills : List Char) : Except FillError (List Opcode) :=
  Slot.commandsFrom 0 scaffold.slots fills

end Hexagony
