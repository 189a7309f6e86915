import Std.Data.ExtTreeSet
import Hexagony.Search.Candidates
import Hexagony.Search.Dispatch
import Hexagony.Search.Trial

namespace Hexagony.Search

structure Report where
  solutions : List String
  subsets : Nat
  candidates : Nat
  skipped : Nat
  deriving DecidableEq

structure Tally where
  solutions : Std.ExtTreeSet String := ∅
  subsets : Nat := 0
  candidates : Nat := 0
  skipped : Nat := 0

namespace Tally

def count (tally : Tally) : Trial → Tally
  | .skipped => {tally with skipped := tally.skipped + 1}
  | .tried program solved =>
    {tally with
      candidates := tally.candidates + 1
      solutions :=
        if solved then tally.solutions.insert (String.ofList program) else tally.solutions}

def countBatch (tally : Tally) (batch : List Trial) : Tally :=
  let counted := batch.foldl count tally
  {counted with subsets := counted.subsets + 1}

def report (tally : Tally) : Report where
  solutions := tally.solutions.toList
  subsets := tally.subsets
  candidates := tally.candidates
  skipped := tally.skipped

end Tally

def reservations (config : Config) : List (List Nat) :=
  Choice.subsets config.required.length (freeCells config.cells)

def items (config : Config) (base : Interpreter) (reserved : List Nat) : List (List Trial) :=
  (Choice.orderings config.required).map (trials config base reserved)

-- How the items for a choice of reserved cells are dealt out: the order in which all their trials
-- are made.
abbrev Deal := List Nat → List (List Trial) → List Trial

def Config.deal (config : Config) (cores : Nat) : Deal := fun _ => dispatch cores config.threads

def check (config : Config) : Except Error Unit :=
  let free := (freeCells config.cells).length
  let required := config.required.length
  if free < required then .error (.notEnoughSlots free required) else .ok ()

def runWith (deal : Deal) (config : Config) : Except Error Report := do
  check config
  let base := base config
  let tally : Tally := (reservations config).foldl
    (fun tally reserved => tally.countBatch (deal reserved (items config base reserved))) {}
  return tally.report

def run (cores : Nat) (config : Config) : Except Error Report := runWith (config.deal cores) config

-- Threads may be refused for a reason, which matters only where a pool is wanted.
def openPool (cores : Nat) (refusal : Option String) (mode : ThreadMode) : Except Error Unit :=
  match mode.resolve cores, refusal with
  | .pool _, some reason => .error (.threadPool reason)
  | _, _ => .ok ()

def runOn (cores : Nat) (refusal : Option String) (config : Config) : Except Error Report := do
  check config
  openPool cores refusal config.threads
  run cores config

end Hexagony.Search
