import Hexagony.Execution
import Hexagony.Machine.Basic
import Hexagony.Scaffold.Compile

namespace Hexagony

structure Replay where
  nodes : Array Node
  commands : Array Opcode
  machine : Machine
  node : Nat := 0
  loopPhase : Option Nat := none
  clock : Clock := {}

namespace Replay

def ofScaffold (scaffold : Scaffold) (fills : List Char) (input : Input) :
    Except FillError Replay := do
  let commands ← scaffold.commands fills
  return {nodes := scaffold.nodes.toArray, commands := commands.toArray, machine := {input}}

def setBudget (replay : Replay) (budget : Option Nat) : Replay :=
  {replay with clock := {replay.clock with budget}}

def setTarget (replay : Replay) (target : Option String) : Replay :=
  {replay with machine := replay.machine.setTarget target}

def execute (replay : Replay) (slot : Nat) : Flow × Machine :=
  replay.machine.execute (replay.commands.getD slot .nop)

-- Visits a node. A loop stays at its node and goes round by its phase; an empty one idles.
def visit (replay : Replay) : Node → Flow × Replay
  | .command slot =>
    let (flow, machine) := replay.execute slot
    (flow, {replay with machine, node := replay.node + 1})
  | .jump target => (.proceed, {replay with node := target})
  | .branch positive nonPositive =>
    (.proceed, {replay with node := if replay.machine.isPositive then positive else nonPositive})
  | .loop body phase =>
    let current := replay.loopPhase.getD phase
    match body[current]? with
    | none => (.proceed, replay)
    | some slot =>
      let (flow, machine) := replay.execute slot
      (flow, {replay with machine, loopPhase := some ((current + 1) % body.length)})
  | .exit =>
    let (flow, machine) := replay.machine.terminate
    (flow, {replay with machine})

-- A loop that has been left, or not yet begun, starts at its own phase.
def forgetPhase (replay : Replay) : Replay :=
  match replay.nodes[replay.node]? with
  | some (.loop ..) => replay
  | _ => {replay with loopPhase := none}

def perform (replay : Replay) : Replay :=
  match replay.nodes[replay.node]? with
  | none => {replay with clock := replay.clock.halt}
  | some node =>
    let (flow, visited) := replay.visit node
    let clock := replay.clock.tick
    {visited.forgetPhase with
      clock := match flow with
        | .halt => clock.halt
        | .proceed => clock}

def step (replay : Replay) : Replay :=
  if replay.clock.status = .running then replay.perform else replay

instance : Clocked Replay where
  clock := Replay.clock
  step := step

def status (replay : Replay) : Status := replay.clock.status

def run (replay : Replay) : Replay := Clocked.run replay

end Replay
end Hexagony
