import Hexagony.Command.Arguments
import Hexagony.Command.Run
import Hexagony.Search.Report

namespace Hexagony.Command

-- How a command line ends. What was printed before a failure stays printed.
inductive Outcome where
  | badArguments
  | failed (printed : String) (failure : Failure)
  | done (printed summary : String)
  deriving DecidableEq

def unescape (text : String) : Except Failure String := (Escape.decode text).mapError .escape

def unescape? : Option String → Except Failure (Option String)
  | none => .ok none
  | some text => (unescape text).map some

def runOptions (arguments : RunArguments) : Except Failure RunOptions := do
  let target ← unescape? arguments.target
  let input := match arguments.input with
    | some path => InputSource.file path
    | none => .standard
  return {budget := arguments.maxTicks, target, input}

def Outcome.ofResult (printed : String) : Except Failure (String × String) → Outcome
  | .error failure => .failed printed failure
  | .ok (text, summary) => .done (printed ++ text) summary

def ranProgram (result : Summary × String) : String × String :=
  (result.2, result.1.text ++ "\n")

def runProgram (world : World) (file : String) (arguments : RunArguments) :
    Except Failure (String × String) := do
  let options ← runOptions arguments
  return ranProgram (← run world file options)

def printGrid (world : World) (file : String) : Except Failure (String × String) := do
  return ((← gridText world file) ++ "\n", "")

def replayFilled (world : World) (file fill : String) (arguments : RunArguments) :
    Except Failure (String × String) := do
  let fills ← unescape fill
  let options ← runOptions arguments
  return ranProgram (← replay world file fills.toList options)

def runScaffold (world : World) (file : String) (fill : Option String) (arguments : RunArguments) :
    Outcome :=
  match scaffoldText world file with
  | .error failure => .failed "" failure
  | .ok text =>
    let printed := text ++ "\n"
    match fill with
    | none => .done printed ""
    | some fill => .ofResult printed (replayFilled world file fill arguments)

def searchConfig (world : World) (arguments : SearchArguments) : Except Failure Search.Config := do
  let template ← unescape arguments.template
  let target ← unescape arguments.target
  let required ← unescape arguments.required
  let available ← unescape arguments.available
  return {
    template, target
    required := required.toList
    available := available.toList
    threads := .ofFlagOrSetting arguments.threads world.threadSetting
    prefixTicks := arguments.prefixTicks
    probeTicks := arguments.probeTicks
    maxTicks := arguments.maxTicks}

def searchPrograms (world : World) (arguments : SearchArguments) :
    Except Failure (String × String) := do
  let config ← searchConfig world arguments
  let report ← (Search.runOn world.cores world.poolRefusal config).mapError .search
  return (Text.unlines report.solutions, "")

def Invocation.carryOut (world : World) : Invocation → Outcome
  | .run file arguments => .ofResult "" (runProgram world file arguments)
  | .grid file => .ofResult "" (printGrid world file)
  | .scaffold file fill arguments => runScaffold world file fill arguments
  | .search arguments => .ofResult "" (searchPrograms world arguments)

def session (world : World) (arguments : List String) : Outcome :=
  match Arguments.parse arguments with
  | none => .badArguments
  | some invocation => invocation.carryOut world

namespace Outcome

def exitCode : Outcome → Nat
  | badArguments => 2
  | failed .. => 1
  | done .. => 0

end Outcome
end Hexagony.Command
