import Hexagony.Command.World
import Hexagony.Text

namespace Hexagony.Command

structure SearchArguments where
  template : String
  required : String
  available : String
  target : String
  threads : Option Nat
  prefixTicks : Nat
  probeTicks : Nat
  maxTicks : Nat
  deriving DecidableEq

structure RunArguments where
  input : Option String
  maxTicks : Option Nat
  target : Option String
  deriving DecidableEq

inductive Invocation where
  | run (file : String) (options : RunArguments)
  | grid (file : String)
  | scaffold (file : String) (fill : Option String) (options : RunArguments)
  | search (arguments : SearchArguments)
  deriving DecidableEq

namespace Arguments

structure Sorted where
  positional : List String := []
  values : List (String × String) := []
  deriving DecidableEq

def Sorted.addPositional (sorted : Sorted) (argument : String) : Sorted :=
  {sorted with positional := argument :: sorted.positional}

def Sorted.addValue (sorted : Sorted) (name value : String) : Option Sorted :=
  if sorted.values.any (·.1 == name) then none
  else some {sorted with values := (name, value) :: sorted.values}

def Sorted.value? (sorted : Sorted) (name : String) : Option String := sorted.values.lookup name

inductive Token where
  | plain
  | separator
  | option (name : String) (value : Option String)
  | dashed

-- A lone dash is an ordinary argument.
def classify (argument : String) : Token :=
  match argument.toList with
  | ['-', '-'] => .separator
  | '-' :: '-' :: text =>
    let name := String.ofList (text.takeWhile (· != '='))
    match text.dropWhile (· != '=') with
    | [] => .option name none
    | _ :: value => .option name (some (String.ofList value))
  | '-' :: _ :: _ => .dashed
  | _ => .plain

def isPlain (argument : String) : Bool :=
  match classify argument with
  | .plain => true
  | _ => false

def sort (names : List String) : List String → Option Sorted
  | [] => some {}
  | argument :: rest =>
    match classify argument, rest with
    | .plain, rest => (sort names rest).map (·.addPositional argument)
    | .separator, rest => some {positional := rest}
    | .dashed, _ => none
    | .option name (some value), rest =>
      if names.contains name then (sort names rest).bind (·.addValue name value) else none
    | .option _ none, [] => none
    | .option name none, value :: rest =>
      if names.contains name && isPlain value then
        (sort names rest).bind (·.addValue name value)
      else none

def file? (sorted : Sorted) : Option String :=
  match sorted.positional with
  | [file] => if file.isEmpty then none else some file
  | _ => none

def optional {α : Type} (sorted : Sorted) (name : String) (read : String → Option α) :
    Option (Option α) :=
  match sorted.value? name with
  | none => some none
  | some text => (read text).map some

def number (text : String) : Option Nat := Text.parseWord? text.toList

def path (text : String) : Option String := if text.isEmpty then none else some text

def runArguments (sorted : Sorted) : Option RunArguments := do
  let input ← optional sorted "input" path
  let maxTicks ← optional sorted "max-ticks" number
  return {input, maxTicks, target := sorted.value? "target"}

def searchArguments (sorted : Sorted) : Option SearchArguments := do
  if !sorted.positional.isEmpty then none
  let template ← sorted.value? "template"
  let available ← sorted.value? "available"
  let target ← sorted.value? "target"
  let threads ← optional sorted "threads" number
  let prefixTicks ← optional sorted "prefix-ticks" number
  let probeTicks ← optional sorted "probe-ticks" number
  let maxTicks ← optional sorted "max-ticks" number
  return {
    template, available, target, threads
    required := (sorted.value? "required").getD ""
    prefixTicks := prefixTicks.getD 3
    probeTicks := probeTicks.getD 15
    maxTicks := maxTicks.getD 10000}

def parse : List String → Option Invocation
  | "run" :: rest => do
    let sorted ← sort ["input", "max-ticks", "target"] rest
    return .run (← file? sorted) (← runArguments sorted)
  | "grid" :: rest => do
    let sorted ← sort [] rest
    return .grid (← file? sorted)
  | "scaffold" :: rest => do
    let sorted ← sort ["fill", "input", "max-ticks", "target"] rest
    return .scaffold (← file? sorted) (sorted.value? "fill") (← runArguments sorted)
  | "search" :: rest => do
    let sorted ← sort ["template", "required", "available", "target", "threads", "prefix-ticks",
      "probe-ticks", "max-ticks"] rest
    return .search (← searchArguments sorted)
  | _ => none

end Arguments
end Hexagony.Command
