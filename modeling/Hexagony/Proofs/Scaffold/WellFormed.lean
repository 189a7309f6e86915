import Hexagony.Proofs.Execution
import Hexagony.Proofs.Scaffold.Equivalence

namespace Hexagony

def Node.Fits (nodes slots index : Nat) : Node → Prop
  | .command slot => slot < slots ∧ index + 1 < nodes
  | .jump target => target < nodes
  | .branch positive nonPositive => positive < nodes ∧ nonPositive < nodes
  | .loop body phase =>
    (∀ slot ∈ body, slot < slots) ∧ (phase < body.length ∨ body = [] ∧ phase = 0) ∧
      (∀ start, ¬Rotation.rotate body start < body) ∧ Rotation.least body = 0
  | .exit => True

structure Scaffold.WellFormed (grid : Grid) (scaffold : Scaffold) : Prop where
  entry : scaffold.nodes ≠ []
  nodes : ∀ {index : Nat} {node : Node}, scaffold.nodes[index]? = some node →
    node.Fits scaffold.nodes.length scaffold.slots.length index
  slots : Slot.Cells grid scaffold.slots

namespace Layout
variable {segments : List (Segment Nat Location)} {index : Nat} {segment : Segment Nat Location}
  {cycle : Cycle}

theorem Cycle.phases_bounded {entries : List Nat} {phase : Nat}
    (entry : phase ∈ cycle.phases entries) :
    phase < cycle.canonicalBody.length ∨ cycle.canonicalBody = [] ∧ phase = 0 := by
  have length : cycle.canonicalBody.length = cycle.body.length :=
    Rotation.rotate_length cycle.body _
  by_cases empty : cycle.body = []
  · right
    constructor
    · exact List.eq_nil_of_length_eq_zero (by rw [length, empty]; rfl)
    · rcases List.mem_cons.mp entry with rfl | other
      · exact phase_empty empty cycle.start
      · simp [empty] at other
  · left
    rw [length]
    rcases List.mem_cons.mp entry with rfl | other
    · exact phase_lt empty cycle.start
    · have listed := (List.mem_filter.mp (List.mem_filter.mp other).1).1
      exact List.mem_range.mp listed

theorem target_lt (closed : Closed segments) (found : segments[index]? = some segment)
    {location : Location} (leads : location ∈ segment.ending.targets) :
    target segments location < (nodes segments).length := by
  obtain ⟨node, here⟩ := (meets_of_target closed found leads).node closed
  exact (List.getElem?_eq_some_iff.mp here).1

theorem ending_fits (closed : Closed segments) (found : segments[index]? = some segment)
    (slots place : Nat) :
    (Block.endingNode (segment.ending.map (target segments))).Fits (nodes segments).length slots
      place := by
  have inside (location : Location) (leads : location ∈ segment.ending.targets) :=
    target_lt closed found leads
  cases ends : segment.ending with
  | jump next =>
    rw [ends] at inside
    exact inside next (by simp [Ending.targets])
  | branch positive nonPositive =>
    rw [ends] at inside
    exact ⟨inside positive (by simp [Ending.targets]), inside nonPositive (by simp [Ending.targets])⟩
  | exit => trivial

theorem loop_fits {slots phase : Nat} (named : ∀ slot ∈ segment.commands, slot < slots)
    (cyclic : cycle? index segment = some cycle) (entry : phase ∈ entered segments index cycle)
    (nodes place : Nat) : (Node.loop cycle.canonicalBody phase).Fits nodes slots place := by
  refine ⟨?_, Cycle.phases_bounded entry, ?_, Rotation.least_canonical cycle.body⟩
  · intro slot member
    have listed : slot ∈ cycle.body := Rotation.mem_canonical.mp member
    rw [(cycle?_eq_some.mp cyclic).2] at listed
    exact named slot (List.mem_of_mem_drop listed)
  · exact Rotation.rotate_canonical_minimal cycle.body

theorem nodes_fit {slots : Nat} (closed : Closed segments)
    (named : ∀ segment ∈ segments, ∀ slot ∈ segment.commands, slot < slots) {place : Nat}
    {node : Node} (found : (nodes segments)[place]? = some node) :
    node.Fits (nodes segments).length slots place := by
  obtain ⟨index, segment, here, command | ending | loop⟩ := nodes_cases closed found
  · obtain ⟨offset, slot, rfl, called, before, rfl⟩ := command
    refine ⟨named segment (List.mem_of_getElem? here) slot (List.mem_of_getElem? called), ?_⟩
    -- The node after a command is that of the next offset, or the loop the segment runs into.
    have inside := (List.getElem?_eq_some_iff.mp called).1
    obtain ⟨next, follows⟩ := (meets_straight here inside before).node closed
    exact (List.getElem?_eq_some_iff.mp follows).1
  · obtain ⟨_, rfl⟩ := ending
    exact ending_fits closed here slots place
  · obtain ⟨cycle, phase, cyclic, entry, rfl⟩ := loop
    exact loop_fits (named segment (List.mem_of_getElem? here)) cyclic entry _ _

end Layout

namespace Survey

theorem located_named (survey : Survey) :
    ∀ segment ∈ survey.located, ∀ slot ∈ segment.commands, slot < survey.slots.length := by
  intro segment present slot member
  obtain ⟨surveyed, listed, rfl⟩ := List.mem_map.mp present
  obtain ⟨point, called, rfl⟩ := List.mem_map.mp member
  apply List.idxOf_lt_length_of_mem
  exact mem_distinct.mpr (List.mem_flatMap.mpr ⟨surveyed, listed, called⟩)

end Survey

namespace Scaffold

theorem ofGrid_entry (grid : Grid) : (ofGrid grid).nodes ≠ [] := by
  obtain ⟨cells, settles⟩ := Survey.ofGrid_settles grid (Survey.ofGrid_start grid)
  obtain ⟨segment, found, _⟩ := Survey.settles_valid settles
  obtain ⟨node, first⟩ := (Layout.meets_start found).node (Survey.ofGrid_closed grid)
  rw [Replay.ofGrid_nodes]
  intro none
  rw [none] at first
  cases first

theorem ofGrid_wellFormed (grid : Grid) : (ofGrid grid).WellFormed grid where
  entry := ofGrid_entry grid
  nodes := by
    intro index node found
    have count : (ofGrid grid).slots.length = (Survey.ofGrid grid).slots.length := by
      rw [Survey.ofGrid_slots, List.length_map]
    rw [count, Replay.ofGrid_nodes]
    rw [Replay.ofGrid_nodes] at found
    exact Layout.nodes_fit (Survey.ofGrid_closed grid) (Survey.located_named _) found
  slots := Survey.slots_cells (Survey.ofGrid_sound grid)

end Scaffold

namespace Replay
variable {replay start : Replay} {scaffold : Scaffold} {grid : Grid}

def slot? (replay : Replay) : Option Nat :=
  match replay.nodes[replay.node]? with
  | some (.command slot) => some slot
  | some (.loop body phase) => body[replay.loopPhase.getD phase]?
  | _ => none

section Lookup
variable {commands : Array Opcode}

theorem execute_of_same {slot : Nat} (same : commands[slot]? = replay.commands[slot]?) :
    ({replay with commands} : Replay).execute slot = replay.execute slot := by
  simp only [execute, Array.getD_eq_getD_getElem?, same]

theorem visit_of_slot {node : Node} (here : replay.nodes[replay.node]? = some node)
    (agrees : ∀ slot, replay.slot? = some slot → commands[slot]? = replay.commands[slot]?) :
    ({replay with commands} : Replay).visit node =
      ((replay.visit node).1, {(replay.visit node).2 with commands}) := by
  unfold slot? at agrees
  rw [here] at agrees
  cases node with
  | command slot =>
    simp only [visit, execute_of_same (agrees slot rfl)]
  | loop body phase =>
    simp only [visit]
    cases called : body[replay.loopPhase.getD phase]? with
    | none => rfl
    | some slot => simp only [execute_of_same (agrees slot called)]
  | jump | branch | exit => rfl

theorem step_of_slot
    (agrees : ∀ slot, replay.slot? = some slot → commands[slot]? = replay.commands[slot]?) :
    ({replay with commands} : Replay).step = {replay.step with commands} := by
  unfold step
  dsimp only
  split
  · unfold perform
    dsimp only
    cases here : replay.nodes[replay.node]? with
    | none => rfl
    | some node =>
      dsimp only
      rw [visit_of_slot here agrees]
      unfold forgetPhase
      dsimp only
      cases (replay.visit node).2.nodes[(replay.visit node).2.node]? with
      | none => rfl
      | some next => cases next <;> rfl
  · rfl

end Lookup

inductive Reached (start : Replay) : Replay → Prop where
  | start : Reached start start
  | step {state : Replay} (reached : Reached start state) : Reached start state.step
  | run {state : Replay} (reached : Reached start state) : Reached start state.run
  | setBudget {state : Replay} (reached : Reached start state) (budget : Option Nat) :
      Reached start (state.setBudget budget)
  | setTarget {state : Replay} (reached : Reached start state) (target : Option String) :
      Reached start (state.setTarget target)

structure Placed (scaffold : Scaffold) (replay : Replay) : Prop where
  nodes : replay.nodes = scaffold.nodes.toArray
  commands : replay.commands.size = scaffold.slots.length
  node : replay.node < scaffold.nodes.length

@[simp] theorem forgetPhase_node (replay : Replay) : replay.forgetPhase.node = replay.node := by
  unfold forgetPhase
  split <;> rfl

theorem visit_inside {node : Node} {slots : Nat}
    (here : replay.node < scaffold.nodes.length)
    (fits : node.Fits scaffold.nodes.length slots replay.node) :
    (replay.visit node).2.node < scaffold.nodes.length := by
  cases node with
  | command slot => exact fits.2
  | jump target => exact fits
  | branch positive nonPositive =>
    simp only [visit]
    split
    · exact fits.1
    · exact fits.2
  | loop body phase =>
    simp only [visit]
    split
    · exact here
    · exact here
  | exit => exact here

theorem step_placed (formed : scaffold.WellFormed grid) (placed : Placed scaffold replay) :
    Placed scaffold replay.step := by
  unfold step perform
  split
  · have inside := placed.node
    have found : replay.nodes[replay.node]? = some scaffold.nodes[replay.node] := by
      rw [placed.nodes, List.getElem?_toArray]
      exact List.getElem?_eq_getElem inside
    rw [found]
    refine ⟨?_, ?_, ?_⟩
    · simpa [visit_nodes] using placed.nodes
    · simpa [visit_commands] using placed.commands
    · rw [placed.nodes, List.getElem?_toArray] at found
      simpa using visit_inside inside (formed.nodes found)
  · exact placed

theorem reached_placed (formed : scaffold.WellFormed grid) (placed : Placed scaffold start)
    (reached : Reached start replay) : Placed scaffold replay := by
  induction reached with
  | start => exact placed
  | step _ ih => exact step_placed formed ih
  | run _ ih => exact Clocked.runFor_keeps (P := Placed scaffold) (fun _ => step_placed formed) ih _
  | setBudget _ _ ih => exact ⟨ih.nodes, ih.commands, ih.node⟩
  | setTarget _ _ ih => exact ⟨ih.nodes, ih.commands, ih.node⟩

theorem made_placed {fills : List Char} {input : Input} {made : Replay}
    (formed : scaffold.WellFormed grid) (accepted : ofScaffold scaffold fills input = .ok made) :
    Placed scaffold made := by
  obtain ⟨commands, supplied, rfl⟩ := ofScaffold_eq_ok accepted
  refine ⟨rfl, ?_, ?_⟩
  · exact Slot.commandsFrom_length supplied
  · exact List.length_pos_iff.mpr formed.entry

theorem slot?_lt (formed : scaffold.WellFormed grid) (placed : Placed scaffold replay) {slot : Nat}
    (next : replay.slot? = some slot) : slot < replay.commands.size := by
  unfold slot? at next
  rw [placed.nodes, List.getElem?_toArray] at next
  rw [placed.commands]
  split at next
  · rename_i found
    cases next
    exact (formed.nodes found).1
  · rename_i found
    exact (formed.nodes found).1 slot (List.mem_of_getElem? next)
  · cases next

end Replay

-- A compiled scaffold is well formed, and along every replay of it there is a node to visit, whose
-- slot has an instruction; no other instruction is looked up.
theorem Scaffold.ofGrid_safe (grid : Grid) :
    (ofGrid grid).WellFormed grid ∧
      ∀ {fills : List Char} {input : Input} {made replay : Replay},
        Replay.ofScaffold (ofGrid grid) fills input = .ok made → Replay.Reached made replay →
          replay.node < replay.nodes.size ∧
            (∀ slot, replay.slot? = some slot → slot < replay.commands.size) ∧
            ∀ commands : Array Opcode,
              (∀ slot, replay.slot? = some slot → commands[slot]? = replay.commands[slot]?) →
                ({replay with commands} : Replay).step = {replay.step with commands} := by
  have formed := ofGrid_wellFormed grid
  refine ⟨formed, ?_⟩
  intro fills input made replay accepted reached
  have placed := Replay.reached_placed formed (Replay.made_placed formed accepted) reached
  refine ⟨?_, ?_, ?_⟩
  · rw [placed.nodes, List.size_toArray]
    exact placed.node
  · exact fun slot next => Replay.slot?_lt formed placed next
  · exact fun commands agrees => Replay.step_of_slot agrees

-- Commands, branches, a jump back and empty loops; the budget ends the replay at a command.
theorem Scaffold.ofGrid_safe_resumed :
    let grid := (Grid.blank 2).refill ['?', '<']
    ∃ made, Replay.ofScaffold (ofGrid grid) [')'] {} = .ok made ∧ (ofGrid grid).WellFormed grid ∧
      let replay := (made.setBudget (some 5)).run
      let longer := replay.commands.push .terminate
      replay.slot? = some 0 ∧ replay.node < replay.nodes.size ∧ 0 < replay.commands.size ∧
        ({replay with commands := longer} : Replay).step = {replay.step with commands := longer} := by
  intro grid
  let made : Replay :=
    {nodes := (ofGrid grid).nodes.toArray, commands := #[.increment], machine := {}}
  have supplied : (ofGrid grid).commands [')'] = .ok [.increment] := by decide +kernel
  have accepted : Replay.ofScaffold (ofGrid grid) [')'] {} = .ok made := by
    rw [Replay.ofScaffold, supplied]
    rfl
  obtain ⟨formed, safe⟩ := ofGrid_safe grid
  obtain ⟨inside, supplies, reads⟩ := safe accepted (.run (.setBudget .start (some 5)))
  have next : (made.setBudget (some 5)).run.slot? = some 0 := by decide +kernel
  refine ⟨made, accepted, formed, next, inside, supplies 0 next, reads _ ?_⟩
  intro slot looked
  rw [next] at looked
  cases looked
  rw [Array.getElem?_push_lt (supplies 0 next), Array.getElem?_eq_getElem (supplies 0 next)]

end Hexagony
