import Hexagony.Search.Report

namespace Hexagony.Search

def reservedMark : Char := 'X'

def openingEntry (cores : Nat) (config : Config) : Log.Entry where
  level := .info
  message :=
    let free := (freeCells config.cells).length
    let required := config.required.length
    "searching " ++ toString (Choice.binomial free required) ++ " templates x " ++
      toString (Choice.orderings config.required).length ++ " orderings x " ++
      toString (Words.total config.available.length (free - required)) ++ " words on " ++
      toString (config.threads.threads cores) ++ " threads"

def reservationEntry (config : Config) (reserved : List Nat) : Log.Entry where
  level := .info
  message :=
    "checking templates: " ++
      String.ofList (place config.cells reserved (reserved.map fun _ => reservedMark))

def trialLog (config : Config) (base : Interpreter) : Trial → List Log.Entry
  | .skipped => []
  | .tried program solved =>
    solveLog config base program ++
      if solved then [⟨.debug, "solution: " ++ String.ofList program⟩] else []

def closingEntry (report : Report) : Log.Entry where
  level := .info
  message :=
    "checked " ++ toString report.candidates ++ " candidates (" ++ toString report.skipped ++
      " skipped): " ++ toString report.solutions.length ++ " solutions"

def log (cores : Nat) (config : Config) (refusal : Option String := none) : List Log.Entry :=
  match runOn cores refusal config with
  | .error _ => []
  | .ok report =>
    let base := base config
    let progress := (reservations config).flatMap fun reserved =>
      reservationEntry config reserved ::
        (config.deal cores reserved (items config base reserved)).flatMap (trialLog config base)
    openingEntry cores config :: (baseStart config).runLog ++ progress ++ [closingEntry report]

end Hexagony.Search
