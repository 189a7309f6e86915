namespace Hexagony

inductive Status where
  | running
  | halted
  | timedOut
  deriving DecidableEq

def Status.name : Status → String
  | running => "Running"
  | halted => "Halted"
  | timedOut => "TimedOut"

structure Clock where
  ticks : Nat := 0
  budget : Option Nat := none
  halted : Bool := false
  deriving DecidableEq

namespace Clock

def expired (clock : Clock) : Bool :=
  match clock.budget with
  | some budget => budget ≤ clock.ticks
  | none => false

def timedOut (clock : Clock) : Bool := !clock.halted && clock.expired

def status (clock : Clock) : Status :=
  if clock.halted then .halted else if clock.expired then .timedOut else .running

def tick (clock : Clock) : Clock := {clock with ticks := clock.ticks + 1}

def halt (clock : Clock) : Clock := {clock with halted := true}

-- Steps are counted in a word of 64 bits; without a budget that is as far as a run is followed.
def horizon : Nat := UInt64.size

def remaining (clock : Clock) : Nat :=
  match clock.budget with
  | some budget => budget - clock.ticks
  | none => horizon

end Clock

-- Something that runs by the clock. A step is only taken while the status is `running`.
class Clocked (σ : Type) where
  clock : σ → Clock
  step : σ → σ

namespace Clocked
variable {σ : Type} [Clocked σ]

def status (state : σ) : Status := (clock state).status

def runFor : Nat → σ → σ
  | 0, state => state
  | fuel + 1, state => if status state = .running then runFor fuel (step state) else state

def run (state : σ) : σ := runFor (clock state).remaining state

def path : Nat → σ → List σ
  | 0, _ => []
  | fuel + 1, state => if status state = .running then state :: path fuel (step state) else []

def runPath (state : σ) : List σ := path (clock state).remaining state

end Clocked
end Hexagony
