import Hexagony.Proofs.Listing
import Hexagony.Proofs.Scaffold.Journey
import Hexagony.Proofs.Scaffold.Rotation
import Hexagony.Scaffold.Layout

namespace Hexagony

namespace Layout

namespace Cycle
variable {cycle : Cycle}

theorem phase_empty (empty : cycle.body = []) (offset : Nat) : cycle.phase offset = 0 := by
  simp [phase, empty]

theorem phase_lt (some : cycle.body ≠ []) (offset : Nat) :
    cycle.phase offset < cycle.body.length := by
  have length := List.length_pos_iff.mpr some
  simp only [phase, Nat.ne_of_gt length, if_false]
  exact Nat.mod_lt _ length

theorem canonicalBody_phase {index : Nat} (inside : index < cycle.body.length) :
    cycle.canonicalBody[cycle.phase (cycle.start + index)]? = cycle.body[index]? := by
  have some : cycle.body ≠ [] := List.ne_nil_of_length_pos (by omega)
  have before : ¬cycle.start + cycle.body.length ≤ cycle.start + index := by omega
  have length : cycle.body.length ≠ 0 := by omega
  simp only [phase, length, before, if_false, Nat.add_sub_cancel_left]
  exact Rotation.getElem?_rotate inside (Rotation.least_lt some)

theorem phase_end : cycle.phase (cycle.start + cycle.body.length) = cycle.mainPhase := by
  by_cases empty : cycle.body = []
  · rw [mainPhase, phase_empty empty, phase_empty empty]
  · have length := List.length_pos_iff.mpr empty
    have later : ¬cycle.start + cycle.body.length ≤ cycle.start := by omega
    simp [mainPhase, phase, later]

theorem phase_succ {index : Nat} (inside : index < cycle.body.length) :
    (cycle.phase (cycle.start + index) + 1) % cycle.canonicalBody.length =
      cycle.phase (cycle.start + (index + 1)) := by
  have some : cycle.body ≠ [] := List.ne_nil_of_length_pos (by omega)
  have least := Rotation.least_lt some
  have length : cycle.body.length ≠ 0 := by omega
  have before : ¬cycle.start + cycle.body.length ≤ cycle.start + index := by omega
  rw [canonicalBody, Rotation.canonical, Rotation.rotate_length]
  by_cases last : index + 1 = cycle.body.length
  · rw [last, phase_end]
    have early : ¬cycle.start + cycle.body.length ≤ cycle.start := by omega
    simp only [mainPhase, phase, length, before, early, if_false, Nat.add_sub_cancel_left,
      Nat.sub_self, Nat.mod_add_mod]
    rw [show index + cycle.body.length - Rotation.least cycle.body + 1 =
      0 + cycle.body.length - Rotation.least cycle.body + cycle.body.length by omega,
      Nat.add_mod_right]
  · have inner : ¬cycle.start + cycle.body.length ≤ cycle.start + (index + 1) := by omega
    simp only [phase, length, before, inner, if_false, Nat.add_sub_cancel_left, Nat.mod_add_mod]
    congr 1
    omega

theorem mainPhase_mem (cycle : Cycle) (entries : List Nat) :
    cycle.mainPhase ∈ cycle.phases entries := List.mem_cons_self

theorem phase_mem {entries : List Nat} {offset : Nat} (entered : offset ∈ entries)
    (cyclic : cycle.start ≤ offset) : cycle.phase offset ∈ cycle.phases entries := by
  by_cases main : cycle.phase offset = cycle.mainPhase
  · rw [main]
    exact cycle.mainPhase_mem entries
  · have some : cycle.body ≠ [] := by
      intro empty
      rw [mainPhase, phase_empty empty, phase_empty empty] at main
      exact main rfl
    refine List.mem_cons_of_mem _ (List.mem_filter.mpr ⟨List.mem_filter.mpr ⟨?_, ?_⟩, ?_⟩)
    · exact List.mem_range.mpr (phase_lt some offset)
    · simpa using main
    · refine List.contains_iff_mem.mpr (List.mem_map.mpr ⟨offset, ?_, rfl⟩)
      exact List.mem_filter.mpr ⟨entered, by simpa using cyclic⟩

end Cycle

def Valid (segments : List (Segment Nat Location)) (location : Location) : Prop :=
  ∃ segment, segments[location.segment]? = some segment ∧
    location.offset ≤ segment.commands.length

def Closed (segments : List (Segment Nat Location)) : Prop :=
  ∀ segment ∈ segments, ∀ target ∈ segment.ending.targets, Valid segments target

theorem cycle?_eq_some {index : Nat} {segment : Segment Nat Location} {cycle : Cycle} :
    cycle? index segment = some cycle ↔
      segment.ending = .jump ⟨index, cycle.start⟩ ∧
        cycle.body = segment.commands.drop cycle.start := by
  obtain ⟨start, body⟩ := cycle
  unfold cycle?
  cases segment.ending with
  | jump target =>
    obtain ⟨owner, offset⟩ := target
    by_cases own : owner = index <;> grind
  | branch positive nonPositive => simp
  | exit => simp

def Looped (index : Nat) (segment : Segment Nat Location) : Prop :=
  ∀ cycle, cycle? index segment = some cycle → cycle.start ≤ segment.commands.length

theorem Closed.looped {segments : List (Segment Nat Location)} (closed : Closed segments)
    {index : Nat} {segment : Segment Nat Location} (found : segments[index]? = some segment) :
    Looped index segment := by
  intro cycle cyclic
  obtain ⟨ends, _⟩ := cycle?_eq_some.mp cyclic
  have target : (⟨index, cycle.start⟩ : Location) ∈ segment.ending.targets := by
    simp [ends, Ending.targets]
  obtain ⟨other, same, within⟩ := closed segment (List.mem_of_getElem? found) _ target
  rw [found] at same
  cases same
  exact within

section Blocks
variable {references : List Location} {index base : Nat} {segment : Segment Nat Location}

theorem block_nodes_length (looped : Looped index segment) (references : List Location)
    (base : Nat) (target : Location → Nat) :
    ((block references index base segment).nodes target).length =
      (block references index base segment).size := by
  cases cyclic : cycle? index segment with
  | none => simp [block, Block.nodes, Block.size, cyclic]
  | some cycle =>
    have within := looped cycle cyclic
    simp [block, Block.nodes, Block.size, cyclic, within]

theorem blocksFrom_getElem? {segments : List (Segment Nat Location)} {place : Nat}
    (looped : ∀ i segment, segments[i]? = some segment → Looped (index + i) segment)
    (found : segments[place]? = some segment) (target : Location → Nat) :
    (blocksFrom references index base segments)[place]? = some (block references (index + place)
      (base + (((blocksFrom references index base segments).take place).flatMap
        (·.nodes target)).length) segment) := by
  induction segments generalizing index base place with
  | nil => simp at found
  | cons first rest ih =>
    rw [blocksFrom]
    cases place with
    | zero =>
      simp only [List.getElem?_cons_zero, Option.some.injEq] at found
      simp [found]
    | succ place =>
      simp only [List.getElem?_cons_succ] at found ⊢
      have later : ∀ i segment, rest[i]? = some segment → Looped (index + 1 + i) segment := by
        intro i segment present
        have here := looped (i + 1) segment (by simpa using present)
        rwa [Nat.add_assoc, Nat.add_comm 1 i]
      have sized := block_nodes_length (looped 0 first (by simp)) references base target
      rw [Nat.add_zero] at sized
      rw [ih later found, List.take_succ_cons, List.flatMap_cons, List.length_append, sized]
      congr 2
      · omega
      · omega

theorem blocksFrom_length (references : List Location) (index base : Nat)
    (segments : List (Segment Nat Location)) :
    (blocksFrom references index base segments).length = segments.length := by
  induction segments generalizing index base with
  | nil => rfl
  | cons first rest ih => rw [blocksFrom, List.length_cons, List.length_cons, ih]

end Blocks

section Nodes
variable (segments : List (Segment Nat Location))

def blocks : List Block := blocksFrom (references segments) 0 0 segments

def target (location : Location) : Nat :=
  ((blocks segments)[location.segment]?.map (·.nodeOf location.offset)).getD 0

def base (index : Nat) : Nat :=
  (((blocks segments).take index).flatMap (·.nodes (target segments))).length

def entered (index : Nat) (cycle : Cycle) : List Nat :=
  cycle.phases (((references segments).filter (·.segment = index)).map Location.offset)

theorem nodes_eq : nodes segments = (blocks segments).flatMap (·.nodes (target segments)) := by
  unfold nodes nodesWith
  simp only [List.getElem?_toArray]
  rfl

end Nodes

section Lookup
variable {segments : List (Segment Nat Location)} {index offset : Nat}
  {segment : Segment Nat Location} {cycle : Cycle}

theorem blocks_getElem? (closed : Closed segments) (found : segments[index]? = some segment) :
    (blocks segments)[index]? =
      some (block (references segments) index (base segments index) segment) := by
  have looped : ∀ i segment, segments[i]? = some segment → Looped (0 + i) segment := by
    intro i segment present
    rw [Nat.zero_add]
    exact closed.looped present
  have laid : (blocks segments)[index]? = _ := blocksFrom_getElem? looped found (target segments)
  rw [laid, Nat.zero_add, Nat.zero_add]
  rfl

theorem nodes_getElem? (closed : Closed segments) (found : segments[index]? = some segment)
    {inner : Nat} {node : Node}
    (here : ((block (references segments) index (base segments index) segment).nodes
      (target segments))[inner]? = some node) :
    (nodes segments)[base segments index + inner]? = some node := by
  rw [nodes_eq, base, Listing.getElem?_flatMap (blocks_getElem? closed found)]
  · exact here
  · exact (List.getElem?_eq_some_iff.mp here).1

theorem nodes_command (closed : Closed segments) (found : segments[index]? = some segment)
    {slot : Nat} (named : segment.commands[offset]? = some slot)
    (before : ∀ cycle, cycle? index segment = some cycle → offset < cycle.start) :
    (nodes segments)[base segments index + offset]? = some (.command slot) := by
  apply nodes_getElem? closed found
  have inside := (List.getElem?_eq_some_iff.mp named).1
  cases cyclic : cycle? index segment with
  | none =>
    simp only [Block.nodes, block, cyclic]
    rw [List.getElem?_append_left (by rwa [List.length_map]), List.getElem?_map, named]
    rfl
  | some cycle =>
    have early := before cycle cyclic
    simp only [Block.nodes, block, cyclic]
    rw [List.getElem?_append_left (by simp; omega), List.getElem?_map,
      List.getElem?_take_of_lt early, named]
    rfl

theorem nodes_ending (closed : Closed segments) (found : segments[index]? = some segment)
    (straight : cycle? index segment = none) :
    (nodes segments)[base segments index + segment.commands.length]? =
      some (Block.endingNode (segment.ending.map (target segments))) := by
  apply nodes_getElem? closed found
  simp only [Block.nodes, block, straight]
  rw [List.getElem?_append_right (Nat.le_of_eq (List.length_map _)), List.length_map, Nat.sub_self]
  rfl

theorem nodes_loop (closed : Closed segments) (found : segments[index]? = some segment)
    (cyclic : cycle? index segment = some cycle) {phase : Nat}
    (entry : phase ∈ entered segments index cycle) :
    (nodes segments)[base segments index +
      (cycle.start + (entered segments index cycle).idxOf phase)]? =
        some (.loop cycle.canonicalBody phase) := by
  apply nodes_getElem? closed found
  have within := closed.looped found cycle cyclic
  have start : ((segment.commands.take cycle.start).map Node.command).length = cycle.start := by
    rw [List.length_map, List.length_take_of_le within]
  have place := List.idxOf_lt_length_of_mem entry
  simp only [Block.nodes, block, cyclic, Option.map_some, Option.getD_some]
  rw [List.getElem?_append_right (by omega), start, Nat.add_sub_cancel_left, List.getElem?_map]
  change Option.map _ (entered segments index cycle)[_]? = _
  rw [List.getElem?_eq_getElem place, List.getElem_idxOf]
  rfl

theorem straight_of_ending (closed : Closed segments) (found : segments[index]? = some segment)
    (before : ∀ cycle, cycle? index segment = some cycle → segment.commands.length < cycle.start) :
    cycle? index segment = none := by
  cases cyclic : cycle? index segment with
  | none => rfl
  | some cycle =>
    have within := closed.looped found cycle cyclic
    have beyond := before cycle cyclic
    omega

-- All that a node can be: a command before the cycle of its segment, the ending of a segment that
-- has no cycle, or an entry of a cycle.
theorem nodes_cases (closed : Closed segments) {place : Nat} {node : Node}
    (found : (nodes segments)[place]? = some node) :
    ∃ index segment, segments[index]? = some segment ∧
      ((∃ offset slot, place = base segments index + offset ∧
          segment.commands[offset]? = some slot ∧
          (∀ cycle, cycle? index segment = some cycle → offset < cycle.start) ∧
          node = .command slot) ∨
        (cycle? index segment = none ∧
          node = Block.endingNode (segment.ending.map (target segments))) ∨
        ∃ cycle phase, cycle? index segment = some cycle ∧
          phase ∈ entered segments index cycle ∧ node = .loop cycle.canonicalBody phase) := by
  rw [nodes_eq] at found
  obtain ⟨index, laid, inner, present, rfl, held⟩ := Listing.exists_of_getElem?_flatMap found
  have bound := (List.getElem?_eq_some_iff.mp present).1
  rw [blocks, blocksFrom_length] at bound
  have here := List.getElem?_eq_getElem bound
  obtain rfl := Option.some.inj ((blocks_getElem? closed here).symm.trans present)
  refine ⟨index, segments[index], here, ?_⟩
  cases cyclic : cycle? index segments[index] with
  | none =>
    simp only [Block.nodes, block, cyclic] at held
    rw [List.getElem?_append] at held
    split at held
    · rw [List.getElem?_map] at held
      obtain ⟨slot, named, rfl⟩ := Option.map_eq_some_iff.mp held
      exact .inl ⟨inner, slot, rfl, named, by simp, rfl⟩
    · rw [List.getElem?_singleton] at held
      split at held
      · exact .inr (.inl ⟨rfl, (Option.some.inj held).symm⟩)
      · cases held
  | some cycle =>
    simp only [Block.nodes, block, cyclic, Option.map_some, Option.getD_some] at held
    rw [List.getElem?_append] at held
    split at held
    · rename_i early
      rw [List.length_map, List.length_take] at early
      rw [List.getElem?_map, List.getElem?_take_of_lt (by omega)] at held
      obtain ⟨slot, named, rfl⟩ := Option.map_eq_some_iff.mp held
      refine .inl ⟨inner, slot, rfl, named, ?_, rfl⟩
      intro other same
      cases same
      omega
    · rw [List.getElem?_map] at held
      obtain ⟨phase, entry, rfl⟩ := Option.map_eq_some_iff.mp held
      exact .inr (.inr ⟨cycle, phase, rfl, List.mem_of_getElem? entry, rfl⟩)

end Lookup

-- A location and where the nodes stand there: at its own node before the cycle of the segment, in
-- the cycle at a loop whose next command is that of the location.
inductive Meets (segments : List (Segment Nat Location)) : Location → Control → Prop where
  | straight {index offset : Nat} {segment : Segment Nat Location}
      (found : segments[index]? = some segment) (within : offset ≤ segment.commands.length)
      (before : ∀ cycle, cycle? index segment = some cycle → offset < cycle.start) :
      Meets segments ⟨index, offset⟩ ⟨base segments index + offset, none⟩
  | looping {index offset : Nat} {segment : Segment Nat Location} {cycle : Cycle} {phase : Nat}
      {loopPhase : Option Nat} (found : segments[index]? = some segment)
      (within : offset ≤ segment.commands.length) (cyclic : cycle? index segment = some cycle)
      (after : cycle.start ≤ offset) (entry : phase ∈ entered segments index cycle)
      (now : loopPhase.getD phase = cycle.phase offset) :
      Meets segments ⟨index, offset⟩
        ⟨base segments index + (cycle.start + (entered segments index cycle).idxOf phase), loopPhase⟩

section Meeting
variable {segments : List (Segment Nat Location)} {location : Location} {control : Control}
  {index offset : Nat} {segment : Segment Nat Location}

theorem Meets.valid (meets : Meets segments location control) : Valid segments location := by
  cases meets with
  | straight found within before => exact ⟨_, found, within⟩
  | looping found within cyclic after entry now => exact ⟨_, found, within⟩

theorem Meets.node (closed : Closed segments) (meets : Meets segments location control) :
    ∃ node, (nodes segments)[control.node]? = some node := by
  cases meets with
  | straight found within before =>
    rename_i index offset segment
    rcases Nat.lt_or_eq_of_le within with inner | rfl
    · exact ⟨_, nodes_command closed found (List.getElem?_eq_getElem inner) before⟩
    · exact ⟨_, nodes_ending closed found (straight_of_ending closed found before)⟩
  | looping found _ cyclic _ entry _ => exact ⟨_, nodes_loop closed found cyclic entry⟩

theorem meets_straight (found : segments[index]? = some segment)
    (within : offset ≤ segment.commands.length)
    (upto : ∀ cycle, cycle? index segment = some cycle → offset ≤ cycle.start) :
    Meets segments ⟨index, offset⟩ ⟨base segments index + offset, none⟩ := by
  by_cases start : ∃ cycle, cycle? index segment = some cycle ∧ offset = cycle.start
  · obtain ⟨cycle, cyclic, rfl⟩ := start
    have meets : Meets segments ⟨index, cycle.start⟩ ⟨base segments index +
        (cycle.start + (entered segments index cycle).idxOf cycle.mainPhase), none⟩ :=
      .looping found within cyclic (Nat.le_refl _) (cycle.mainPhase_mem _) rfl
    have first : (entered segments index cycle).idxOf cycle.mainPhase = 0 :=
      List.idxOf_cons_self
    rwa [first, Nat.add_zero] at meets
  · refine .straight found within ?_
    intro cycle cyclic
    have early := upto cycle cyclic
    have other : offset ≠ cycle.start := fun same => start ⟨cycle, cyclic, same⟩
    omega

theorem meets_start (found : segments[0]? = some segment) : Meets segments ⟨0, 0⟩ ⟨0, none⟩ := by
  have meets := meets_straight found (Nat.zero_le segment.commands.length)
    (fun cycle _ => Nat.zero_le cycle.start)
  have first : base segments 0 = 0 := rfl
  rwa [first] at meets

theorem target_referred (found : segments[index]? = some segment)
    (leads : location ∈ segment.ending.targets) : location ∈ references segments := by
  refine List.mem_flatMap.mpr ⟨(segment, index), ?_, List.mem_cons_of_mem _ leads⟩
  exact List.mk_mem_zipIdx_iff_getElem?.mpr found

theorem meets_target (closed : Closed segments) (valid : Valid segments location)
    (referred : location ∈ references segments) :
    Meets segments location ⟨target segments location, none⟩ := by
  obtain ⟨index, offset⟩ := location
  obtain ⟨segment, found, within⟩ := valid
  have laid : target segments ⟨index, offset⟩ =
      (block (references segments) index (base segments index) segment).nodeOf offset := by
    simp [target, blocks_getElem? closed found]
  rw [laid]
  cases cyclic : cycle? index segment with
  | none =>
    simp only [Block.nodeOf, block, cyclic]
    exact .straight found within (fun cycle other => by simp [cyclic] at other)
  | some cycle =>
    simp only [Block.nodeOf, block, cyclic, Option.map_some, Option.getD_some]
    by_cases after : cycle.start ≤ offset
    · rw [if_pos after, Nat.add_assoc]
      refine .looping found within cyclic after (Cycle.phase_mem ?_ after) rfl
      exact List.mem_map.mpr ⟨_, List.mem_filter.mpr ⟨referred, by simp⟩, rfl⟩
    · rw [if_neg after]
      refine .straight found within ?_
      intro other same
      rw [cyclic] at same
      cases same
      omega

theorem meets_of_target (closed : Closed segments) (found : segments[index]? = some segment)
    (leads : location ∈ segment.ending.targets) :
    Meets segments location ⟨target segments location, none⟩ :=
  meets_target closed (closed segment (List.mem_of_getElem? found) location leads)
    (target_referred found leads)

end Meeting

section Acts
variable {nodes : Array Node} {node : Nat}

theorem arrive_none (nodes : Array Node) (node : Nat) :
    Control.arrive nodes node none = ⟨node, none⟩ := by
  unfold Control.arrive
  split <;> rfl

theorem act?_command {slot : Nat} (found : nodes[node]? = some (.command slot)) :
    Control.act? nodes ⟨node, none⟩ = some (.command slot ⟨node + 1, none⟩) := by
  simp [Control.act?, found, arrive_none]

theorem act?_ending {ending : Ending Nat} (found : nodes[node]? = some (Block.endingNode ending)) :
    Control.act? nodes ⟨node, none⟩ = some (.ending (ending.map fun next => ⟨next, none⟩)) := by
  cases ending <;> simp_all [Control.act?, Block.endingNode, arrive_none, Ending.map]

theorem act?_loop {body : List Nat} {phase slot : Nat} {loopPhase : Option Nat}
    (found : nodes[node]? = some (.loop body phase))
    (inside : body[loopPhase.getD phase]? = some slot) :
    Control.act? nodes ⟨node, loopPhase⟩ =
      some (.command slot ⟨node, some ((loopPhase.getD phase + 1) % body.length)⟩) := by
  simp [Control.act?, found, inside]

theorem act?_loop_empty {phase : Nat} {loopPhase : Option Nat}
    (found : nodes[node]? = some (.loop [] phase)) :
    Control.act? nodes ⟨node, loopPhase⟩ = some (.ending (.jump ⟨node, loopPhase⟩)) := by
  simp [Control.act?, found]

end Acts

section Refinement
variable {segments : List (Segment Nat Location)} {index offset : Nat}
  {segment : Segment Nat Location} {cycle : Cycle}

theorem body_getElem? (cyclic : cycle? index segment = some cycle) (after : cycle.start ≤ offset) :
    segment.commands[offset]? = cycle.body[offset - cycle.start]? := by
  rw [(cycle?_eq_some.mp cyclic).2, List.getElem?_drop]
  congr 1
  omega

theorem command_meets (closed : Closed segments) {location : Location} {control : Control}
    {slot : Nat} (meets : Meets segments location control)
    (has : Segment.HasCommand segments location slot) :
    ∃ other, Control.act? (nodes segments).toArray control = some (.command slot other) ∧
      Meets segments location.next other := by
  obtain ⟨segment, found, named⟩ := has
  have inside := (List.getElem?_eq_some_iff.mp named).1
  cases meets with
  | straight same _ before =>
    obtain rfl := Option.some.inj (found.symm.trans same)
    refine ⟨_, act?_command ?_, ?_⟩
    · rw [List.getElem?_toArray]
      exact nodes_command closed found named before
    · exact meets_straight found inside before
  | looping same within cyclic after entry now =>
    obtain rfl := Option.some.inj (found.symm.trans same)
    rename_i index offset cycle phase loopPhase
    have node := nodes_loop closed found cyclic entry
    have next : segment.commands[offset]? = some slot := named
    rw [body_getElem? cyclic after] at next
    have inner := (List.getElem?_eq_some_iff.mp next).1
    have place : cycle.start + (offset - cycle.start) = offset := Nat.add_sub_cancel' after
    refine ⟨_, act?_loop (by rwa [List.getElem?_toArray]) ?_, ?_⟩
    · have body := Cycle.canonicalBody_phase inner
      rw [place] at body
      rw [now, body, next]
    · refine .looping found inside cyclic (Nat.le_succ_of_le after) entry ?_
      have onward := Cycle.phase_succ inner
      rw [← Nat.add_assoc, place] at onward
      rw [Option.getD_some, now, onward]

-- The jump that closes a cycle leads to the phase reached already. Only where the cycle has no
-- command is there something to do: to stay.
theorem closing_meets (closed : Closed segments) (found : segments[index]? = some segment)
    (cyclic : cycle? index segment = some cycle) {phase : Nat} {loopPhase : Option Nat}
    (entry : phase ∈ entered segments index cycle)
    (now : loopPhase.getD phase = cycle.phase segment.commands.length) :
    let control : Control :=
      ⟨base segments index + (cycle.start + (entered segments index cycle).idxOf phase), loopPhase⟩
    Meets segments ⟨index, cycle.start⟩ control ∧
      (Control.act? (nodes segments).toArray control = some (.ending (.jump control)) ∨
        ∃ slot, Segment.HasCommand segments ⟨index, cycle.start⟩ slot) := by
  have within := closed.looped found cycle cyclic
  have body := (cycle?_eq_some.mp cyclic).2
  have last : cycle.start + cycle.body.length = segment.commands.length := by
    rw [body, List.length_drop]
    omega
  constructor
  · refine .looping found within cyclic (Nat.le_refl _) entry ?_
    rw [now, ← last, Cycle.phase_end]
    rfl
  · cases parts : cycle.body with
    | nil =>
      left
      have node := nodes_loop closed found cyclic entry
      have empty : cycle.canonicalBody = [] := by
        simp [Cycle.canonicalBody, Rotation.canonical, Rotation.rotate, parts]
      rw [empty] at node
      exact act?_loop_empty (by rwa [List.getElem?_toArray])
    | cons slot rest =>
      refine .inr ⟨slot, segment, found, ?_⟩
      rw [body_getElem? cyclic (Nat.le_refl _), parts, Nat.sub_self]
      rfl

theorem ending_meets (closed : Closed segments) {location : Location} {control : Control}
    {ending : Ending Location} (meets : Meets segments location control)
    (has : Segment.HasEnding segments location ending) :
    (Control.act? (nodes segments).toArray control =
        some (.ending (ending.map fun next => ⟨target segments next, none⟩)) ∧
      ∀ next ∈ ending.targets, Meets segments next ⟨target segments next, none⟩) ∨
    ∃ next, ending = .jump next ∧ Meets segments next control ∧
      (Control.act? (nodes segments).toArray control = some (.ending (.jump control)) ∨
        ∃ slot, Segment.HasCommand segments next slot) := by
  obtain ⟨segment, found, last, rfl⟩ := has
  cases meets with
  | straight same _ before =>
    obtain rfl := Option.some.inj (found.symm.trans same)
    left
    dsimp only at last
    subst last
    constructor
    · have node := nodes_ending closed found (straight_of_ending closed found before)
      rw [act?_ending (by rwa [List.getElem?_toArray])]
      cases segment.ending <;> rfl
    · exact fun next leads => meets_of_target closed found leads
  | looping same _ cyclic _ entry now =>
    obtain rfl := Option.some.inj (found.symm.trans same)
    dsimp only at last
    subst last
    exact .inr ⟨_, (cycle?_eq_some.mp cyclic).1, closing_meets closed found cyclic entry now⟩

theorem act?_of_valid {location : Location} (valid : Valid segments location) :
    ∃ act, Segment.act? segments location = some act := by
  obtain ⟨segment, found, within⟩ := valid
  rcases Nat.lt_or_eq_of_le within with inner | last
  · exact ⟨_, Segment.act?_of_command ⟨segment, found, List.getElem?_eq_getElem inner⟩⟩
  · exact ⟨_, Segment.act?_of_ending ⟨segment, found, last, rfl⟩⟩

theorem nodes_refine (closed : Closed segments) :
    Journey.Refines (Segment.act? segments) (Control.act? (nodes segments).toArray)
      (Meets segments) where
  defined := fun meets => act?_of_valid meets.valid
  command := by
    intro location control slot next meets does
    obtain ⟨has, rfl⟩ := Segment.command_of_act? does
    exact command_meets closed meets has
  jump := by
    intro location control next meets does
    rcases ending_meets closed meets (Segment.ending_of_act? does) with
      ⟨other, onward⟩ | ⟨target, same, onward, stays | ⟨slot, has⟩⟩
    · exact .inl ⟨_, other, onward next (by simp [Ending.targets])⟩
    · cases same
      exact .inl ⟨control, stays, onward⟩
    · cases same
      refine .inr ⟨onward, fun after jumps => ?_⟩
      rw [Segment.act?_of_command has] at jumps
      cases jumps
  branch := by
    intro location control positive nonPositive meets does
    rcases ending_meets closed meets (Segment.ending_of_act? does) with
      ⟨other, onward⟩ | ⟨target, same, _⟩
    · exact ⟨_, _, other, onward positive (by simp [Ending.targets]),
        onward nonPositive (by simp [Ending.targets])⟩
    · cases same
  exit := by
    intro location control meets does
    rcases ending_meets closed meets (Segment.ending_of_act? does) with
      ⟨other, _⟩ | ⟨target, same, _⟩
    · exact other
    · cases same

end Refinement

section Order
variable {left right : List Location}

-- The phases of the entries are sorted and rid of repetitions, and those that remain get a node
-- unless they have got the first one.
theorem Cycle.phases_eq_sortDedup {entries listed : List Nat} (cycle : Cycle)
    (lists : ∀ phase, phase ∈ listed ↔
      ∃ offset ∈ entries, cycle.start ≤ offset ∧ cycle.phase offset = phase) :
    cycle.phases entries =
      cycle.mainPhase :: (Listing.sortDedup listed).filter (· != cycle.mainPhase) := by
  unfold phases
  simp only [List.cons.injEq, true_and]
  have rising := (List.pairwise_lt_range (n := cycle.body.length)).filter (· != cycle.mainPhase)
  refine (rising.filter _).eq_of_mem_iff ((Listing.pairwise_sortDedup listed).filter _) fun phase => ?_
  simp only [List.mem_filter, List.mem_range, Listing.mem_sortDedup, lists, List.contains_iff_mem,
    List.mem_map, bne_iff_ne, decide_eq_true_eq, and_assoc]
  constructor
  · rintro ⟨_, other, entered⟩
    exact ⟨entered, other⟩
  · rintro ⟨⟨offset, entered, cyclic, rfl⟩, other⟩
    refine ⟨phase_lt ?_ offset, other, offset, entered, cyclic, rfl⟩
    intro empty
    rw [mainPhase, phase_empty empty, phase_empty empty] at other
    exact other rfl

theorem Cycle.phases_congr {entries others : List Nat}
    (same : ∀ offset, offset ∈ entries ↔ offset ∈ others) (cycle : Cycle) :
    cycle.phases entries = cycle.phases others := by
  have lists (phase : Nat) : phase ∈ (entries.filter (cycle.start ≤ ·)).map cycle.phase ↔
      ∃ offset ∈ entries, cycle.start ≤ offset ∧ cycle.phase offset = phase := by
    simp [and_assoc]
  rw [phases_eq_sortDedup cycle lists, phases_eq_sortDedup cycle fun phase => ?_]
  rw [lists]
  simp only [same]

theorem block_congr (same : ∀ location, location ∈ left ↔ location ∈ right) (index base : Nat)
    (segment : Segment Nat Location) :
    block left index base segment = block right index base segment := by
  have entries (cycle : Cycle) :
      cycle.phases ((left.filter (·.segment = index)).map Location.offset) =
        cycle.phases ((right.filter (·.segment = index)).map Location.offset) := by
    apply Cycle.phases_congr
    intro offset
    simp only [List.mem_map, List.mem_filter, same]
  simp only [block, entries]

theorem blocksFrom_congr (same : ∀ location, location ∈ left ↔ location ∈ right) (index base : Nat)
    (segments : List (Segment Nat Location)) :
    blocksFrom left index base segments = blocksFrom right index base segments := by
  induction segments generalizing index base with
  | nil => rfl
  | cons segment rest ih => rw [blocksFrom, blocksFrom, block_congr same, ih]

-- Only which locations are referred to matters, not their order or how often they are listed.
theorem nodesWith_congr (same : ∀ location, location ∈ left ↔ location ∈ right)
    (segments : List (Segment Nat Location)) :
    nodesWith left segments = nodesWith right segments := by
  simp only [nodesWith, blocksFrom_congr same]

end Order

end Layout
end Hexagony
