import Hexagony.Proofs.Scaffold.Layout

namespace Hexagony

inductive Event where
  | command (slot : Nat)
  | decision (positive : Bool)
  | exit
  deriving DecidableEq

namespace Event

def isDecision : Event → Bool
  | decision _ => true
  | command _ | exit => false

def outcome (outcomes : Nat → Bool) (events : List Event) : Bool :=
  outcomes (events.countP isDecision)

end Event

namespace Act
variable {ι : Type}

def event? (positive : Bool) : Act ι → Option Event
  | command slot _ => some (.command slot)
  | ending (.jump _) => none
  | ending (.branch _ _) => some (.decision positive)
  | ending .exit => some .exit

def next? (positive : Bool) : Act ι → Option ι
  | command _ next => some next
  | ending (.jump next) => some next
  | ending (.branch upper lower) => some (if positive then upper else lower)
  | ending .exit => none

end Act

-- Control flow that is followed; it is at no place once it has come to its end.
structure Walk (ι : Type) where
  place : Option ι
  events : List Event := []

namespace Walk
variable {ι κ : Type}

def step (act? : ι → Option (Act ι)) (outcomes : Nat → Bool) (walk : Walk ι) : Walk ι :=
  let positive := Event.outcome outcomes walk.events
  let act := walk.place.bind act?
  {place := act.bind (Act.next? positive)
   events := walk.events ++ (act.bind (Act.event? positive)).toList}

section Step
variable {act? : ι → Option (Act ι)} {outcomes : Nat → Bool} {events : List Event} {place : ι}

theorem step_ended : step act? outcomes ⟨none, events⟩ = ⟨none, events⟩ := by
  simp [step]

theorem step_act {act : Act ι} (does : act? place = some act) :
    step act? outcomes ⟨some place, events⟩ =
      ⟨act.next? (Event.outcome outcomes events),
        events ++ (act.event? (Event.outcome outcomes events)).toList⟩ := by
  simp [step, does]

theorem step_jump {next : ι} (does : act? place = some (.ending (.jump next))) :
    step act? outcomes ⟨some place, events⟩ = ⟨some next, events⟩ := by
  simp [step_act does, Act.next?, Act.event?]

end Step

def Agree (meets : ι → κ → Prop) (act : Act ι) (other : Act κ) : Prop :=
  ∀ positive, other.event? positive = act.event? positive ∧
    Option.Rel meets (act.next? positive) (other.next? positive)

theorem agree_of_refines {fine : ι → Option (Act ι)} {coarse : κ → Option (Act κ)}
    {meets : ι → κ → Prop} (refines : Journey.Refines fine coarse meets) {i : ι} {k : κ}
    (meet : meets i k) {act : Act ι} (does : fine i = some act) :
    (∃ other, coarse k = some other ∧ Agree meets act other) ∨
      ∃ next, act = .ending (.jump next) ∧ meets next k ∧
        ∀ after, fine next ≠ some (.ending (.jump after)) := by
  cases act with
  | command slot next =>
    obtain ⟨other, otherDoes, onward⟩ := refines.command meet does
    exact .inl ⟨_, otherDoes, fun _ => ⟨rfl, .some onward⟩⟩
  | ending ending =>
    cases ending with
    | jump next =>
      rcases refines.jump meet does with ⟨other, otherDoes, onward⟩ | ⟨onward, last⟩
      · exact .inl ⟨_, otherDoes, fun _ => ⟨rfl, .some onward⟩⟩
      · exact .inr ⟨next, rfl, onward, last⟩
    | branch positive nonPositive =>
      obtain ⟨upper, lower, otherDoes, above, below⟩ := refines.branch meet does
      refine .inl ⟨_, otherDoes, fun decided => ⟨rfl, ?_⟩⟩
      cases decided with
      | true => exact .some above
      | false => exact .some below
    | exit => exact .inl ⟨_, refines.exit meet does, fun _ => ⟨rfl, .none⟩⟩

def Alike (fine : ι → Option (Act ι)) (meets : ι → κ → Prop) (rank : Nat) (left : Walk ι)
    (right : Walk κ) : Prop :=
  right.events = left.events ∧ Option.Rel meets left.place right.place ∧
    rank = (left.place.map (Journey.jumps fine)).getD 0

theorem alike_of_meets (fine : ι → Option (Act ι)) {meets : ι → κ → Prop} {place : Option ι}
    {other : Option κ} (meet : Option.Rel meets place other) (events : List Event) :
    Alike fine meets ((place.map (Journey.jumps fine)).getD 0) ⟨place, events⟩ ⟨other, events⟩ :=
  ⟨rfl, meet, rfl⟩

theorem paced_of_refines {fine : ι → Option (Act ι)} {coarse : κ → Option (Act κ)}
    {meets : ι → κ → Prop} (refines : Journey.Refines fine coarse meets) (outcomes : Nat → Bool) :
    Paced (step fine outcomes) (step coarse outcomes) events events 1 (Alike fine meets) where
  agree := And.left
  step := by
    rintro rank ⟨place, events⟩ ⟨other, others⟩ ⟨rfl, meet, rfl⟩
    dsimp only at meet ⊢
    cases meet with
    | none =>
      rw [step_ended]
      apply MakesGood.by_one
      · rw [step_ended]
        exact alike_of_meets fine .none others
      · exact Nat.le_refl _
    | @some i k meet =>
      obtain ⟨act, does⟩ := refines.defined meet
      rcases agree_of_refines refines meet does with
        ⟨other, otherDoes, agree⟩ | ⟨next, rfl, onward, last⟩
      · obtain ⟨shows, onward⟩ := agree (Event.outcome outcomes others)
        rw [step_act does]
        apply MakesGood.by_one
        · rw [step_act otherDoes, shows]
          exact alike_of_meets fine onward _
        · exact Nat.le_refl _
      · -- A jump shows nothing, so the coarser walk may stay where it is.
        rw [step_jump does]
        refine .by_none (alike_of_meets fine (.some onward) others) ?_
        simp [Journey.jumps_of_jump does, Journey.jumps_of_other last]

end Walk

def Machine.signed (positive : Bool) : Machine where
  memory := Memory.set {} (if positive then 1 else 0)

@[simp] theorem Machine.signed_isPositive (positive : Bool) :
    (signed positive).isPositive = positive := by
  have here : (signed positive).memory.get = if positive then 1 else 0 := by
    simp [signed, Memory.set, Memory.get, Memory.read]
  rw [isPositive, Memory.isPositive, here]
  cases positive <;> decide

namespace Journey
variable {ι : Type}

def place? (journey : Journey ι) : Option ι := if journey.halted then none else some journey.place

theorem step_idle (act? : ι → Option (Act ι)) (place : ι) (machine : Machine) :
    (step act? (fun _ => .nop) ⟨place, machine, false⟩).place? =
      (act? place).bind (Act.next? machine.isPositive) := by
  cases does : act? place with
  | none => simp [step, does, place?]
  | some act =>
    cases act with
    | command slot next =>
      rw [step_command does]
      simp [place?, Machine.execute, Act.next?]
    | ending ending =>
      cases ending with
      | jump next =>
        rw [step_jump does]
        simp [place?, Act.next?]
      | branch upper lower =>
        rw [step_branch does]
        simp [place?, Act.next?]
      | exit =>
        rw [step_exit does]
        simp [place?, Act.next?]

end Journey

namespace Replay
variable {replay : Replay}

def event? (replay : Replay) : Option Event :=
  if replay.clock.halted then none
  else
    match replay.nodes[replay.node]? with
    | some (.command slot) => some (.command slot)
    | some (.loop body phase) => body[replay.loopPhase.getD phase]?.map .command
    | some (.branch _ _) => some (.decision replay.machine.isPositive)
    | some .exit => some .exit
    | some (.jump _) | none => none

def place? (replay : Replay) : Option Control :=
  if replay.clock.halted then none else some replay.control

theorem rides_place {journey : Journey Control} (rides : Rides replay journey) :
    replay.place? = journey.place? := by
  obtain ⟨seen, here⟩ := rides
  have ended : journey.halted = replay.clock.halted := (Prod.mk.inj seen).2
  cases ceased : replay.clock.halted with
  | true => simp [place?, Journey.place?, ended, ceased]
  | false => simp [place?, Journey.place?, ended, ceased, here ceased]

theorem step_place {nodes : Array Node} (unlimited : Unlimited nodes #[] replay) :
    replay.step.place? =
      (replay.place?.bind (Control.act? nodes)).bind (Act.next? replay.machine.isPositive) := by
  cases ceased : replay.clock.halted with
  | true =>
    rw [step_of_halted ceased]
    simp [place?, ceased]
  | false =>
    have idle : replay.commandOf = fun _ => .nop := by
      funext slot
      simp [commandOf, unlimited.commands]
    have rides : Rides replay ⟨replay.control, replay.machine, false⟩ := by
      refine ⟨?_, fun _ => rfl⟩
      rw [seen, ceased]
      rfl
    rw [step_of_running ceased unlimited.budget, rides_place (perform_journey rides ceased), idle,
      Journey.step_idle, unlimited.nodes]
    simp [place?, ceased]

theorem event?_eq (replay : Replay) :
    replay.event? = (replay.place?.bind (Control.act? replay.nodes)).bind
      (Act.event? replay.machine.isPositive) := by
  unfold event? place?
  split
  · rfl
  · simp only [Option.bind_some, Control.act?, control]
    cases replay.nodes[replay.node]? with
    | none => rfl
    | some node =>
      cases node with
      | command slot | jump target | branch positive nonPositive | exit => rfl
      | loop body phase =>
        dsimp only
        cases body[replay.loopPhase.getD phase]? <;> rfl

end Replay

-- A replay without instructions in its slots that is told the way at every branch.
structure Guided where
  replay : Replay
  events : List Event := []

namespace Guided

def ofNodes (nodes : List Node) : Guided where
  replay := {nodes := nodes.toArray, commands := #[], machine := {}}

-- The step is the replay's own; only the sign of the current edge is set before.
def step (outcomes : Nat → Bool) (guided : Guided) : Guided :=
  let machine := Machine.signed (Event.outcome outcomes guided.events)
  let replay := {guided.replay with machine}
  {replay := replay.step, events := guided.events ++ replay.event?.toList}

structure Follows (nodes : List Node) (walk : Walk Control) (guided : Guided) : Prop where
  unlimited : Replay.Unlimited nodes.toArray #[] guided.replay
  events : guided.events = walk.events
  place : walk.place = guided.replay.place?

theorem ofNodes_follows (nodes : List Node) : Follows nodes ⟨some ⟨0, none⟩, []⟩ (ofNodes nodes) :=
  ⟨⟨rfl, rfl, rfl⟩, rfl, rfl⟩

theorem step_follows {nodes : List Node} {walk : Walk Control} {guided : Guided}
    (follows : Follows nodes walk guided) (outcomes : Nat → Bool) :
    Follows nodes (walk.step (Control.act? nodes.toArray) outcomes) (guided.step outcomes) := by
  obtain ⟨place, events⟩ := walk
  obtain ⟨replay, shown⟩ := guided
  obtain ⟨unlimited, rfl, rfl⟩ := follows
  let told : Replay := {replay with machine := .signed (Event.outcome outcomes shown)}
  have free : Replay.Unlimited nodes.toArray #[] told :=
    ⟨unlimited.nodes, unlimited.commands, unlimited.budget⟩
  refine ⟨Replay.step_unlimited free, ?_, ?_⟩
  · have shows := told.event?_eq
    rw [free.nodes, Machine.signed_isPositive] at shows
    exact congrArg (shown ++ ·.toList) shows
  · have leads := Replay.step_place free
    rw [Machine.signed_isPositive] at leads
    exact leads.symm

theorem iterate_follows {nodes : List Node} {walk : Walk Control} {guided : Guided}
    (follows : Follows nodes walk guided) (outcomes : Nat → Bool) (n : Nat) :
    Follows nodes ((Walk.step (Control.act? nodes.toArray) outcomes)^[n] walk)
      ((step outcomes)^[n] guided) := by
  induction n generalizing walk guided with
  | zero => exact follows
  | succ n ih =>
    rw [Function.iterate_succ_apply, Function.iterate_succ_apply]
    exact ih (step_follows follows outcomes)

def shows (nodes : List Node) (outcomes : Nat → Bool) (steps : Nat) : List Event :=
  ((step outcomes)^[steps] (ofNodes nodes)).events

end Guided

def Segment.shows (segments : List (Segment Nat Location)) (outcomes : Nat → Bool) (steps : Nat) :
    List Event :=
  ((Walk.step (act? segments) outcomes)^[steps] {place := some ⟨0, 0⟩}).events

namespace Layout
variable {segments : List (Segment Nat Location)}

theorem nodes_show (begun : segments ≠ []) (closed : Closed segments) (outcomes : Nat → Bool) :
    (∀ n, ∃ m ≤ n,
        Guided.shows (nodes segments) outcomes m = Segment.shows segments outcomes n) ∧
      ∀ m, ∃ n, Guided.shows (nodes segments) outcomes m = Segment.shows segments outcomes n := by
  have paced := Walk.paced_of_refines (nodes_refine closed) outcomes
  have first : segments[0]? = some (segments.head begun) := by
    rw [← List.head?_eq_getElem?, List.head?_eq_some_head begun]
  have start := Walk.alike_of_meets (Segment.act? segments) (.some (meets_start first)) []
  have followed (m : Nat) :=
    (Guided.iterate_follows (Guided.ofNodes_follows (nodes segments)) outcomes m).events
  constructor
  · intro n
    obtain ⟨m, bound, same⟩ := paced.shows start n
    exact ⟨m, by omega, (followed m).trans same⟩
  · intro m
    obtain ⟨n, same⟩ := paced.shown start m
    exact ⟨n, (followed m).trans same⟩

-- Laid out as nodes, segments show the same commands and decisions one after the other, whatever the
-- outcomes of the branches, and come to an exit or not. The nodes do not depend on the order in
-- which the locations that are referred to are listed.
theorem nodes_faithful (begun : segments ≠ []) (closed : Closed segments) :
    (∀ outcomes : Nat → Bool,
      let walked := Segment.shows segments outcomes
      let replayed := Guided.shows (nodes segments) outcomes
      (∀ n, ∃ m ≤ n, replayed m = walked n) ∧ (∀ m, ∃ n, replayed m = walked n) ∧
        (∀ (index : Nat) (event : Event), (∃ n, (walked n)[index]? = some event) ↔
          ∃ m, (replayed m)[index]? = some event) ∧
        ((∃ n, .exit ∈ walked n) ↔ ∃ m, .exit ∈ replayed m)) ∧
      ∀ listed : List Location, (∀ location, location ∈ listed ↔ location ∈ references segments) →
        nodesWith listed segments = nodes segments := by
  refine ⟨?_, fun listed same => nodesWith_congr same segments⟩
  intro outcomes walked replayed
  obtain ⟨forth, back⟩ : (∀ n, ∃ m ≤ n, replayed m = walked n) ∧ ∀ m, ∃ n, replayed m = walked n :=
    nodes_show begun closed outcomes
  -- Whatever holds of something that one of them shows holds of something that the other shows.
  have transfer (P : List Event → Prop) : (∃ n, P (walked n)) ↔ ∃ m, P (replayed m) := by
    constructor
    · rintro ⟨n, holds⟩
      obtain ⟨m, _, same⟩ := forth n
      rw [← same] at holds
      exact ⟨m, holds⟩
    · rintro ⟨m, holds⟩
      obtain ⟨n, same⟩ := back m
      rw [same] at holds
      exact ⟨n, holds⟩
  exact ⟨forth, back, fun index event => transfer (·[index]? = some event), transfer (.exit ∈ ·)⟩

-- A loop behind a command, entered from elsewhere at its second command and at the jump that is left
-- out.
theorem nodes_faithful_entered :
    let segments : List (Segment Nat Location) :=
      [⟨[4], .branch ⟨1, 2⟩ ⟨2, 0⟩⟩, ⟨[3, 1, 0], .jump ⟨1, 1⟩⟩, ⟨[2], .jump ⟨1, 3⟩⟩]
    let outcomes : Nat → Bool := fun _ => false
    segments ≠ [] ∧ Closed segments ∧
      nodes segments = [.command 4, .branch 4 5, .command 3, .loop [0, 1] 1, .loop [0, 1] 0,
        .command 2, .jump 3] ∧
      (∃ m ≤ 7, Guided.shows (nodes segments) outcomes m =
        [.command 4, .decision false, .command 2, .command 1, .command 0]) ∧
      nodesWith (references segments).reverse segments = nodes segments := by
  intro segments outcomes
  have begun : segments ≠ [] := by decide
  have closed : Closed segments := by
    intro segment present target leads
    simp only [segments, List.mem_cons, List.not_mem_nil, or_false] at present
    rcases present with rfl | rfl | rfl <;> simp [Ending.targets] at leads
    · rcases leads with rfl | rfl <;> simp [Valid, segments]
    · simp [Valid, segments, leads]
    · simp [Valid, segments, leads]
  obtain ⟨shown, ordered⟩ := nodes_faithful begun closed
  have walked : Segment.shows segments outcomes 7 =
      [.command 4, .decision false, .command 2, .command 1, .command 0] := by decide
  obtain ⟨m, bound, same⟩ := (shown outcomes).1 7
  exact ⟨begun, closed, by decide, ⟨m, bound, same.trans walked⟩, ordered _ (by simp)⟩

end Layout
end Hexagony
