import Hexagony.Grid.Wrap
import Hexagony.Machine.Basic
import Hexagony.Execution

namespace Hexagony

structure Interpreter where
  grid : Grid
  machine : Machine
  pointers : Vector InstructionPointer 6
  active : Fin 6 := 0
  clock : Clock := {}
  deriving DecidableEq

namespace Interpreter

def ofGrid (grid : Grid) (input : Input) : Interpreter where
  grid := grid
  machine := {input}
  pointers := InstructionPointer.corners grid.size

def ofSource (source : String) (input : Input) : Interpreter := ofGrid (Grid.parse source) input

def setBudget (interpreter : Interpreter) (budget : Option Nat) : Interpreter :=
  {interpreter with clock := {interpreter.clock with budget}}

def setTarget (interpreter : Interpreter) (target : Option String) : Interpreter :=
  {interpreter with machine := interpreter.machine.setTarget target}

-- The same state of affairs on a grid whose first cells are written anew.
def fork (interpreter : Interpreter) (chars : List Char) : Interpreter :=
  {interpreter with grid := interpreter.grid.refill chars}

def pointer (interpreter : Interpreter) : InstructionPointer :=
  interpreter.pointers[interpreter.active]

def opcode (interpreter : Interpreter) : Opcode :=
  .decode (interpreter.grid.get interpreter.pointer.point)

def advance (grid : Grid) (machine : Machine) (pointer : InstructionPointer) : InstructionPointer :=
  {pointer with point := (grid.step pointer.point pointer.heading).resolve machine.isPositive}

structure Turn where
  flow : Flow
  machine : Machine
  pointer : InstructionPointer
  next : Fin 6

def turn (interpreter : Interpreter) : Turn :=
  let machine := interpreter.machine
  let active := interpreter.active
  let pointer := interpreter.pointer
  let steer (pointer : InstructionPointer) (next : Fin 6) : Turn :=
    {flow := .proceed, machine, pointer, next}
  match interpreter.opcode with
  | .mirror mirror =>
    steer {pointer with heading := mirror.reflect machine.isPositive pointer.heading} active
  | .nextPointer => steer pointer (active + 1)
  | .previousPointer => steer pointer (active - 1)
  | .selectPointer => steer pointer (Fin.ofNat 6 (machine.memory.get.toInt % 6).toNat)
  | .skip => steer (advance interpreter.grid machine pointer) active
  | opcode =>
    let (flow, machine) := machine.execute opcode
    {flow, machine, pointer, next := active}

-- Executes an instruction. A pointer whose instruction ends the program stays where it is.
def perform (interpreter : Interpreter) : Interpreter :=
  let turn := interpreter.turn
  let clock := interpreter.clock.tick
  match turn.flow with
  | .halt => {interpreter with machine := turn.machine, clock := clock.halt}
  | .proceed =>
    let moved := advance interpreter.grid turn.machine turn.pointer
    {interpreter with
      machine := turn.machine
      pointers := interpreter.pointers.set interpreter.active moved
      active := turn.next
      clock}

def step (interpreter : Interpreter) : Interpreter :=
  if interpreter.clock.status = .running then interpreter.perform else interpreter

instance : Clocked Interpreter where
  clock := Interpreter.clock
  step := step

def status (interpreter : Interpreter) : Status := interpreter.clock.status

def run (interpreter : Interpreter) : Interpreter := Clocked.run interpreter

def traceEntry (interpreter : Interpreter) : Log.Entry where
  level := .trace
  message :=
    "tick " ++ Text.column 6 interpreter.clock.ticks ++ " ip " ++ toString interpreter.active.val ++
      " at " ++ interpreter.pointer.point.text ++ " " ++ interpreter.pointer.heading.label ++
      " executing " ++ interpreter.opcode.text

def stepLog (interpreter : Interpreter) : List Log.Entry :=
  if interpreter.status = .running then [interpreter.traceEntry] else []

def runLog (interpreter : Interpreter) : List Log.Entry :=
  (Clocked.runPath interpreter).map traceEntry

end Interpreter
end Hexagony
