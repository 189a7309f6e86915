import Hexagony.Text
import Hexagony.Grid.Basic

namespace Hexagony

inductive ThreadMode where
  | sequential
  | pool (threads : Nat)
  | auto
  deriving DecidableEq

namespace ThreadMode

def variableName : String := "HEXSEARCH_THREADS"

-- A number given outright wins over the environment; a setting that is no number counts as none.
def ofFlagOrSetting (flag : Option Nat) (setting : Option String) : ThreadMode :=
  let threads := flag <|> setting.bind fun text => Text.parseWord? (Text.trim text.toList)
  match threads with
  | some threads => pool threads
  | none => auto

def ofCount (threads : Nat) : ThreadMode := if threads ≤ 1 then sequential else pool threads

def resolve (cores : Nat) : ThreadMode → ThreadMode
  | sequential => sequential
  | pool threads => ofCount threads
  | auto => ofCount cores

def threads (cores : Nat) (mode : ThreadMode) : Nat :=
  match mode.resolve cores with
  | pool threads => threads
  | sequential | auto => 1

end ThreadMode

namespace Search

structure Config where
  template : String := ""
  target : String := ""
  required : List Char := []
  available : List Char := []
  -- Ticks run once on the bare template before candidates part.
  prefixTicks : Nat := 3
  probeTicks : Nat := 15
  maxTicks : Nat := 10000
  threads : ThreadMode := .auto
  deriving DecidableEq

def Config.cells (config : Config) : List Char := Grid.strip config.template

def freeCells (cells : List Char) : List Nat :=
  (cells.zipIdx.filter fun (char, _) => char == Grid.filler).map Prod.snd

inductive Error where
  | notEnoughSlots (free required : Nat)
  | threadPool (reason : String)
  deriving DecidableEq

end Search
end Hexagony
