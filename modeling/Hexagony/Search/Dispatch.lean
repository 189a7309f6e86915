import Hexagony.Search.Config

namespace Hexagony

inductive Worker (ε : Type) where
  | ready
  | working (rest : List ε)
  | stopped

structure Pool (ε : Type) where
  items : Array (List ε)
  next : Nat := 0
  workers : Array (Worker ε)
  given : List Nat := []
  effects : List ε := []

namespace Pool
variable {ε : Type}

def start (threads : Nat) (items : List (List ε)) : Pool ε where
  items := items.toArray
  workers := Array.replicate (min threads items.length) .ready

def setWorker (pool : Pool ε) (index : Nat) (worker : Worker ε) : Pool ε :=
  {pool with workers := pool.workers.setIfInBounds index worker}

def act (pool : Pool ε) (index : Nat) : Pool ε :=
  match pool.workers[index]? with
  | none | some .stopped => pool
  | some .ready =>
    let taken := {pool with next := pool.next + 1}
    match pool.items[pool.next]? with
    | none => taken.setWorker index .stopped
    | some item => {taken with given := pool.next :: pool.given}.setWorker index (.working item)
  | some (.working []) => pool.setWorker index .ready
  | some (.working (effect :: rest)) =>
    {pool with effects := effect :: pool.effects}.setWorker index (.working rest)

def follow (pool : Pool ε) (schedule : List Nat) : Pool ε := schedule.foldl act pool

def finished (pool : Pool ε) : Bool :=
  pool.workers.all fun
    | .stopped => true
    | .ready | .working _ => false

def round (pool : Pool ε) : Pool ε := pool.follow (List.range pool.workers.size)

def rounds : Nat → Pool ε → Pool ε
  | 0, pool => pool
  | fuel + 1, pool => if pool.finished then pool else rounds fuel pool.round

-- An item takes an action for being taken, one for each effect and one for being done with; a
-- worker takes one for stopping. In every round some of these actions are used up.
def actionCount (pool : Pool ε) : Nat :=
  pool.items.toList.flatten.length + 2 * pool.items.size + pool.workers.size

def complete (pool : Pool ε) : Pool ε := rounds pool.actionCount pool

end Pool

def dispatch {ε : Type} (cores : Nat) (mode : ThreadMode) (items : List (List ε)) : List ε :=
  match mode.resolve cores with
  | .pool threads => (Pool.start threads items).complete.effects.reverse
  | .sequential | .auto => items.flatten

end Hexagony
