import Hexagony.Proofs.Scaffold.Segment
import Hexagony.Proofs.Simulation
import Hexagony.Scaffold.Replay

namespace Hexagony

structure Journey (ι : Type) where
  place : ι
  machine : Machine
  halted : Bool := false

namespace Journey
variable {ι κ : Type}

def seen (journey : Journey ι) : Machine × Bool := (journey.machine, journey.halted)

def step (act? : ι → Option (Act ι)) (commands : Nat → Opcode) (journey : Journey ι) :
    Journey ι :=
  if journey.halted then journey
  else
    match act? journey.place with
    | none => {journey with halted := true}
    | some (.command slot next) =>
      let (flow, machine) := journey.machine.execute (commands slot)
      {place := next, machine, halted := flow == .halt}
    | some (.ending (.jump target)) => {journey with place := target}
    | some (.ending (.branch positive nonPositive)) =>
      {journey with place := if journey.machine.isPositive then positive else nonPositive}
    | some (.ending .exit) =>
      {journey with machine := journey.machine.terminate.2, halted := true}

section Step
variable {act? : ι → Option (Act ι)} {commands : Nat → Opcode} {place : ι} {machine : Machine}

theorem step_halted {journey : Journey ι} (ceased : journey.halted = true) :
    step act? commands journey = journey := by
  rw [step, if_pos ceased]

theorem step_command {slot : Nat} {next : ι} (does : act? place = some (.command slot next)) :
    step act? commands ⟨place, machine, false⟩ =
      ⟨next, (machine.execute (commands slot)).2, (machine.execute (commands slot)).1 == .halt⟩ := by
  simp [step, does]

theorem step_jump {next : ι} (does : act? place = some (.ending (.jump next))) :
    step act? commands ⟨place, machine, false⟩ = ⟨next, machine, false⟩ := by
  simp [step, does]

theorem step_branch {positive nonPositive : ι}
    (does : act? place = some (.ending (.branch positive nonPositive))) :
    step act? commands ⟨place, machine, false⟩ =
      ⟨if machine.isPositive then positive else nonPositive, machine, false⟩ := by
  simp [step, does]

theorem step_exit (does : act? place = some (.ending .exit)) :
    step act? commands ⟨place, machine, false⟩ = ⟨place, machine.terminate.2, true⟩ := by
  simp [step, does]

end Step

-- Control flow that says the same at places that meet. A jump of the finer one may be missing in
-- the coarser one, though not two in a row.
structure Refines (fine : ι → Option (Act ι)) (coarse : κ → Option (Act κ)) (meets : ι → κ → Prop) :
    Prop where
  defined : ∀ {i k}, meets i k → ∃ act, fine i = some act
  command : ∀ {i k slot next}, meets i k → fine i = some (.command slot next) →
    ∃ other, coarse k = some (.command slot other) ∧ meets next other
  jump : ∀ {i k next}, meets i k → fine i = some (.ending (.jump next)) →
    (∃ other, coarse k = some (.ending (.jump other)) ∧ meets next other) ∨
      (meets next k ∧ ∀ after, fine next ≠ some (.ending (.jump after)))
  branch : ∀ {i k positive nonPositive}, meets i k →
    fine i = some (.ending (.branch positive nonPositive)) →
      ∃ upper lower, coarse k = some (.ending (.branch upper lower)) ∧ meets positive upper ∧
        meets nonPositive lower
  exit : ∀ {i k}, meets i k → fine i = some (.ending .exit) → coarse k = some (.ending .exit)

def jumps (fine : ι → Option (Act ι)) (place : ι) : Nat :=
  match fine place with
  | some (.ending (.jump _)) => 1
  | _ => 0

theorem jumps_of_jump {fine : ι → Option (Act ι)} {place next : ι}
    (does : fine place = some (.ending (.jump next))) : jumps fine place = 1 := by
  simp [jumps, does]

theorem jumps_of_other {fine : ι → Option (Act ι)} {place : ι}
    (other : ∀ next, fine place ≠ some (.ending (.jump next))) : jumps fine place = 0 := by
  unfold jumps
  split
  · rename_i next does
    exact absurd does (other next)
  · rfl

def Alike (fine : ι → Option (Act ι)) (meets : ι → κ → Prop) (rank : Nat) (left : Journey ι)
    (right : Journey κ) : Prop :=
  right.seen = left.seen ∧ (left.halted = false → meets left.place right.place) ∧
    rank = jumps fine left.place

theorem alike_halted {fine : ι → Option (Act ι)} {meets : ι → κ → Prop} {left : Journey ι}
    {right : Journey κ} (same : right.seen = left.seen) (ceased : left.halted = true) :
    Alike fine meets (jumps fine left.place) left right :=
  ⟨same, fun running => by simp [ceased] at running, rfl⟩

theorem alike_running {fine : ι → Option (Act ι)} {meets : ι → κ → Prop} {i : ι} {k : κ}
    (meet : meets i k) (machine : Machine) (halted : Bool) :
    Alike fine meets (jumps fine i) ⟨i, machine, halted⟩ ⟨k, machine, halted⟩ :=
  ⟨rfl, fun _ => meet, rfl⟩

theorem Refines.paced {fine : ι → Option (Act ι)} {coarse : κ → Option (Act κ)}
    {meets : ι → κ → Prop} (refines : Refines fine coarse meets) (commands : Nat → Opcode) :
    Paced (step fine commands) (step coarse commands) seen seen 1 (Alike fine meets) where
  agree := And.left
  step := by
    intro rank left right alike
    obtain ⟨i, machine, halted⟩ := left
    obtain ⟨k, otherMachine, otherHalted⟩ := right
    obtain ⟨same, meet, rfl⟩ := alike
    obtain ⟨rfl, rfl⟩ := Prod.mk.inj same
    cases otherHalted with
    | true =>
      rw [step_halted rfl]
      apply MakesGood.by_one
      · rw [step_halted rfl]
        exact alike_halted rfl rfl
      · exact Nat.le_refl _
    | false =>
      obtain ⟨act, does⟩ := refines.defined (meet rfl)
      cases act with
      | command slot next =>
        obtain ⟨other, otherDoes, onward⟩ := refines.command (meet rfl) does
        rw [step_command does]
        apply MakesGood.by_one
        · rw [step_command otherDoes]
          exact alike_running onward _ _
        · exact Nat.le_refl _
      | ending ending =>
        cases ending with
        | jump next =>
          rw [step_jump does]
          rcases refines.jump (meet rfl) does with ⟨other, otherDoes, onward⟩ | ⟨onward, last⟩
          · apply MakesGood.by_one
            · rw [step_jump otherDoes]
              exact alike_running onward _ _
            · exact Nat.le_refl _
          · refine .by_none (alike_running onward _ _) ?_
            rw [jumps_of_jump does, jumps_of_other last]
            exact Nat.one_pos
        | branch positive nonPositive =>
          obtain ⟨upper, lower, otherDoes, above, below⟩ := refines.branch (meet rfl) does
          rw [step_branch does]
          apply MakesGood.by_one
          · rw [step_branch otherDoes]
            refine alike_running ?_ _ _
            cases otherMachine.isPositive with
            | true => exact above
            | false => exact below
          · exact Nat.le_refl _
        | exit =>
          rw [step_exit does]
          apply MakesGood.by_one
          · rw [step_exit (refines.exit (meet rfl) does)]
            exact alike_halted rfl rfl
          · exact Nat.le_refl _

end Journey

structure Control where
  node : Nat
  loopPhase : Option Nat := none
  deriving DecidableEq

namespace Control

def arrive (nodes : Array Node) (node : Nat) (loopPhase : Option Nat) : Control :=
  match nodes[node]? with
  | some (.loop ..) => ⟨node, loopPhase⟩
  | _ => ⟨node, none⟩

def act? (nodes : Array Node) (control : Control) : Option (Act Control) :=
  match nodes[control.node]? with
  | none => none
  | some (.command slot) => some (.command slot (arrive nodes (control.node + 1) control.loopPhase))
  | some (.jump target) => some (.ending (.jump (arrive nodes target control.loopPhase)))
  | some (.branch positive nonPositive) =>
    some (.ending (.branch (arrive nodes positive control.loopPhase)
      (arrive nodes nonPositive control.loopPhase)))
  | some (.loop body phase) =>
    let current := control.loopPhase.getD phase
    match body[current]? with
    | none => some (.ending (.jump control))
    | some slot => some (.command slot {control with loopPhase := some ((current + 1) % body.length)})
  | some .exit => some (.ending .exit)

end Control

namespace Replay
variable {replay : Replay}

def seen (replay : Replay) : Machine × Bool := (replay.machine, replay.clock.halted)

def control (replay : Replay) : Control := ⟨replay.node, replay.loopPhase⟩

def commandOf (replay : Replay) (slot : Nat) : Opcode := replay.commands.getD slot .nop

theorem forgetPhase_control (replay : Replay) :
    replay.forgetPhase.control = .arrive replay.nodes replay.node replay.loopPhase := by
  unfold forgetPhase Control.arrive
  cases replay.nodes[replay.node]? with
  | none => rfl
  | some node => cases node <;> rfl

@[simp] theorem forgetPhase_nodes (replay : Replay) : replay.forgetPhase.nodes = replay.nodes := by
  unfold forgetPhase
  split <;> rfl

@[simp] theorem forgetPhase_commands (replay : Replay) :
    replay.forgetPhase.commands = replay.commands := by
  unfold forgetPhase
  split <;> rfl

@[simp] theorem forgetPhase_machine (replay : Replay) :
    replay.forgetPhase.machine = replay.machine := by
  unfold forgetPhase
  split <;> rfl

theorem visit_nodes (node : Node) : (replay.visit node).2.nodes = replay.nodes := by
  unfold visit
  cases node with
  | loop body phase => dsimp only; split <;> rfl
  | _ => rfl

theorem visit_commands (node : Node) : (replay.visit node).2.commands = replay.commands := by
  unfold visit
  cases node with
  | loop body phase => dsimp only; split <;> rfl
  | _ => rfl

structure Unlimited (nodes : Array Node) (commands : Array Opcode) (replay : Replay) : Prop where
  nodes : replay.nodes = nodes
  commands : replay.commands = commands
  budget : replay.clock.budget = none

theorem step_unlimited {nodes : Array Node} {commands : Array Opcode}
    (unlimited : Unlimited nodes commands replay) : Unlimited nodes commands replay.step := by
  unfold step perform
  split
  · split
    · exact ⟨unlimited.nodes, unlimited.commands, unlimited.budget⟩
    · rename_i node _
      refine ⟨?_, ?_, ?_⟩
      · simpa [visit_nodes] using unlimited.nodes
      · simpa [visit_commands] using unlimited.commands
      · dsimp only
        split <;> exact unlimited.budget
  · exact unlimited

-- A replay and a journey through its nodes that have come equally far.
def Rides (replay : Replay) (journey : Journey Control) : Prop :=
  journey.seen = replay.seen ∧ (replay.clock.halted = false → journey.place = replay.control)

theorem step_of_halted (ceased : replay.clock.halted = true) : replay.step = replay := by
  simp [step, Clock.status, ceased]

theorem rides_halted {journey : Journey Control} (rides : Rides replay journey)
    (ceased : replay.clock.halted = true) (act? : Control → Option (Act Control))
    (commands : Nat → Opcode) : Rides replay.step (journey.step act? commands) := by
  have ended : journey.halted = true := (Prod.mk.inj rides.1).2.trans ceased
  rw [Journey.step_halted ended, step_of_halted ceased]
  exact rides

theorem step_of_running (running : replay.clock.halted = false) (unlimited : replay.clock.budget = none) :
    replay.step = replay.perform := by
  unfold step
  rw [if_pos]
  simp [Clock.status, Clock.expired, running, unlimited]

-- The visit to a node is the step of the journey, once the phase is kept or forgotten.
theorem perform_rides {node : Node} (found : replay.nodes[replay.node]? = some node)
    (running : replay.clock.halted = false) {journey : Journey Control}
    (same : journey.seen = ((replay.visit node).2.machine, (replay.visit node).1 == .halt))
    (onward : (replay.visit node).1 = .proceed → journey.place =
      .arrive replay.nodes (replay.visit node).2.node (replay.visit node).2.loopPhase) :
    Rides replay.perform journey := by
  unfold perform
  rw [found]
  dsimp only
  constructor
  · rw [same, seen, forgetPhase_machine]
    cases (replay.visit node).1 with
    | halt => rfl
    | proceed => simp [Clock.tick, running]
  · intro going
    have proceeds : (replay.visit node).1 = .proceed := by
      cases flow : (replay.visit node).1 with
      | halt => simp [flow, Clock.halt] at going
      | proceed => rfl
    rw [onward proceeds]
    have kept := forgetPhase_control (replay.visit node).2
    rw [visit_nodes] at kept
    exact kept.symm

theorem perform_loop {body : List Nat} {phase : Nat}
    (found : replay.nodes[replay.node]? = some (.loop body phase))
    (running : replay.clock.halted = false) :
    Rides replay.perform (Journey.step (Control.act? replay.nodes) replay.commandOf
      ⟨replay.control, replay.machine, false⟩) := by
  have stays (later : Option Nat) :
      Control.arrive replay.nodes replay.node later = ⟨replay.node, later⟩ := by
    simp [Control.arrive, found]
  cases inside : body[replay.loopPhase.getD phase]? with
  | none =>
    have does : Control.act? replay.nodes replay.control =
        some (.ending (.jump replay.control)) := by
      simp [Control.act?, control, found, inside]
    rw [Journey.step_jump does]
    refine perform_rides found running ?_ (fun _ => ?_)
    · simp [visit, inside, Journey.seen]
    · simp [visit, inside, stays, control]
  | some slot =>
    have does : Control.act? replay.nodes replay.control = some (.command slot
        {replay.control with
          loopPhase := some ((replay.loopPhase.getD phase + 1) % body.length)}) := by
      simp [Control.act?, control, found, inside]
    rw [Journey.step_command does]
    refine perform_rides found running ?_ (fun _ => ?_)
    · simp [visit, inside, Journey.seen, execute, commandOf]
    · simp [visit, inside, stays, control]

theorem perform_journey {journey : Journey Control} (rides : Rides replay journey)
    (running : replay.clock.halted = false) :
    Rides replay.perform (journey.step (Control.act? replay.nodes) replay.commandOf) := by
  obtain ⟨place, machine, halted⟩ := journey
  obtain ⟨seen, here⟩ := rides
  obtain ⟨rfl, rfl⟩ := Prod.mk.inj seen
  obtain rfl := here running
  rw [running]
  cases found : replay.nodes[replay.node]? with
  | none =>
    have nothing : Control.act? replay.nodes replay.control = none := by
      simp [Control.act?, control, found]
    unfold perform Journey.step
    simp [found, nothing, Rides, Journey.seen, Replay.seen, Clock.halt]
  | some node =>
    cases node with
    | command slot =>
      have does : Control.act? replay.nodes replay.control =
          some (.command slot (.arrive replay.nodes (replay.node + 1) replay.loopPhase)) := by
        simp [Control.act?, control, found]
      rw [Journey.step_command does]
      exact perform_rides found running rfl (fun _ => rfl)
    | jump target =>
      have does : Control.act? replay.nodes replay.control =
          some (.ending (.jump (.arrive replay.nodes target replay.loopPhase))) := by
        simp [Control.act?, control, found]
      rw [Journey.step_jump does]
      exact perform_rides found running rfl (fun _ => rfl)
    | branch positive nonPositive =>
      have does : Control.act? replay.nodes replay.control =
          some (.ending (.branch (.arrive replay.nodes positive replay.loopPhase)
            (.arrive replay.nodes nonPositive replay.loopPhase))) := by
        simp [Control.act?, control, found]
      rw [Journey.step_branch does]
      refine perform_rides found running rfl (fun _ => ?_)
      dsimp only [visit]
      cases replay.machine.isPositive with
      | true => rfl
      | false => rfl
    | loop body phase => exact perform_loop found running
    | exit =>
      have does : Control.act? replay.nodes replay.control = some (.ending .exit) := by
        simp [Control.act?, control, found]
      rw [Journey.step_exit does]
      refine perform_rides found running rfl ?_
      intro proceeds
      simp [visit, Machine.terminate] at proceeds

theorem rides_step {nodes : Array Node} {commands : Array Opcode}
    (unlimited : Unlimited nodes commands replay) {journey : Journey Control}
    (rides : Rides replay journey) :
    Rides replay.step (journey.step (Control.act? nodes) (commands.getD · .nop)) := by
  cases ceased : replay.clock.halted with
  | true => exact rides_halted rides ceased _ _
  | false =>
    rw [step_of_running ceased unlimited.budget, ← unlimited.nodes, ← unlimited.commands]
    exact perform_journey rides ceased

theorem rides_run {nodes : Array Node} {commands : Array Opcode}
    (unlimited : Unlimited nodes commands replay) {journey : Journey Control}
    (rides : Rides replay journey) (n : Nat) :
    Rides (step^[n] replay) ((Journey.step (Control.act? nodes) (commands.getD · .nop))^[n] journey)
    := by
  induction n generalizing replay journey with
  | zero => exact rides
  | succ n ih =>
    rw [Function.iterate_succ_apply, Function.iterate_succ_apply]
    exact ih (step_unlimited unlimited) (rides_step unlimited rides)

end Replay
end Hexagony
