import Hexagony.Interpreter
import Hexagony.Search.Config
import Hexagony.Search.Candidates

namespace Hexagony.Search

def place (cells : List Char) (slots : List Nat) (chars : List Char) : List Char :=
  (slots.zip chars).foldl (fun cells (slot, char) => cells.set slot char) cells

-- Whether a free cell would get a character that a reserved cell before it holds already. Another
-- choice of reserved cells leads to the same program.
def repeatsRequired (cells : List Char) (reserved free : List Nat) (word : List Char) : Bool :=
  (free.zip word).any fun (slot, char) =>
    (reserved.takeWhile (· ≤ slot)).any fun index => cells[index]? == some char

def baseStart (config : Config) : Interpreter :=
  ((Interpreter.ofSource (String.ofList config.cells) {}).setTarget (some config.target)).setBudget
    (some config.prefixTicks)

def base (config : Config) : Interpreter := (baseStart config).run

def probeStart (config : Config) (base : Interpreter) (program : List Char) : Interpreter :=
  (base.fork program).setBudget (some config.probeTicks)

def promising (probed : Interpreter) : Bool :=
  probed.machine.output.success && 1 ≤ probed.machine.output.length

def fullStart (config : Config) (probed : Interpreter) : Interpreter :=
  probed.setBudget (some config.maxTicks)

def solves (config : Config) (base : Interpreter) (program : List Char) : Bool :=
  let probed := (probeStart config base program).run
  if promising probed then
    let finished := (fullStart config probed).run
    finished.machine.output.success && !finished.clock.timedOut
  else false

def solveLog (config : Config) (base : Interpreter) (program : List Char) : List Log.Entry :=
  let start := probeStart config base program
  let probed := start.run
  start.runLog ++ if promising probed then (fullStart config probed).runLog else []

inductive Trial where
  | skipped
  | tried (program : List Char) (solved : Bool)
  deriving DecidableEq

def leftFree (free reserved : List Nat) : List Nat :=
  free.filter fun slot => !reserved.contains slot

-- The cells are written over for every word that is tried, and left alone by those that are not.
def tryWord (config : Config) (base : Interpreter) (reserved free : List Nat)
    (state : List Char × Array Trial) (word : List Char) : List Char × Array Trial :=
  if repeatsRequired state.1 reserved free word then (state.1, state.2.push .skipped)
  else
    let program := place state.1 free word
    (program, state.2.push (.tried program (solves config base program)))

def trials (config : Config) (base : Interpreter) (reserved : List Nat) (ordering : List Char) :
    List Trial :=
  let free := leftFree (freeCells config.cells) reserved
  let words := Words.ofAlphabet config.available free.length
  let ended := words.foldl (tryWord config base reserved free)
    (Nat.pow config.available.length free.length) (place config.cells reserved ordering, #[])
  ended.2.toList

end Hexagony.Search
