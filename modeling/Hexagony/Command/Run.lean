import Hexagony.Command.World
import Hexagony.Grid.Basic
import Hexagony.Interpreter
import Hexagony.Memory.Basic
import Hexagony.Scaffold.Compile
import Hexagony.Scaffold.Basic
import Hexagony.Scaffold.Replay

namespace Hexagony.Command

structure RunOptions where
  budget : Option Nat := none
  target : Option String := none
  input : InputSource := .standard
  deriving DecidableEq

structure Summary where
  ticks : Nat
  outputLength : Nat
  success : Bool
  status : Status
  deriving DecidableEq

def Summary.text (summary : Summary) : String :=
  "ticks: " ++ toString summary.ticks ++ ", output: " ++ toString summary.outputLength ++
    " chars, success: " ++ toString summary.success ++ ", timed out: " ++
    toString (summary.status == .timedOut)

def summarize (clock : Clock) (output : Output) : Summary where
  ticks := clock.ticks
  outputLength := output.length
  success := output.success
  status := clock.status

def loadProgram (world : World) (path : String) (options : RunOptions) :
    Except Failure Interpreter := do
  let source ← world.readSource path
  let input ← world.openInput options.input
  return ((Interpreter.ofSource source input).setBudget options.budget).setTarget options.target

def run (world : World) (path : String) (options : RunOptions) :
    Except Failure (Summary × String) := do
  let interpreter ← loadProgram world path options
  let finished := interpreter.run
  return (summarize finished.clock finished.machine.output, finished.machine.output.written)

def compile (world : World) (path : String) : Except Failure Scaffold := do
  let source ← world.readSource path
  return Scaffold.ofGrid (Grid.parse source)

def loadReplay (world : World) (path : String) (fills : List Char) (options : RunOptions) :
    Except Failure Replay := do
  let scaffold ← compile world path
  let input ← world.openInput options.input
  let replay ← (Replay.ofScaffold scaffold fills input).mapError .fill
  return (replay.setBudget options.budget).setTarget options.target

def replay (world : World) (path : String) (fills : List Char) (options : RunOptions) :
    Except Failure (Summary × String) := do
  let replay ← loadReplay world path fills options
  let finished := replay.run
  return (summarize finished.clock finished.machine.output, finished.machine.output.written)

def gridText (world : World) (path : String) : Except Failure String := do
  let source ← world.readSource path
  return (Grid.parse source).surveyText

def scaffoldText (world : World) (path : String) : Except Failure String := do
  let scaffold ← compile world path
  return scaffold.text

end Hexagony.Command
