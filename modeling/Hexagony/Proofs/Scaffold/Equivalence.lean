import Hexagony.Proofs.Interpreter
import Hexagony.Proofs.Scaffold.Fill
import Hexagony.Proofs.Scaffold.Layout

namespace Hexagony

namespace Survey
open Segment

section Located
variable {survey : Survey} {location : Location}

theorem act?_located_command {point : Point}
    (has : HasCommand survey.segments.toList location point) :
    act? survey.located location = some (.command (survey.slots.idxOf point) location.next) :=
  act?_of_command (has.rename survey.slots.idxOf (survey.placed.getD · default))

theorem act?_located_ending {ending : Ending Cursor}
    (has : HasEnding survey.segments.toList location ending) :
    act? survey.located location = some (.ending (ending.map (survey.placed.getD · default))) :=
  act?_of_ending (has.rename survey.slots.idxOf (survey.placed.getD · default))

theorem valid_of_command {point : Point}
    (has : HasCommand survey.segments.toList location point) :
    Layout.Valid survey.located location := by
  obtain ⟨segment, found, named⟩ := has.rename survey.slots.idxOf (survey.placed.getD · default)
  exact ⟨segment, found, Nat.le_of_lt (List.getElem?_eq_some_iff.mp named).1⟩

theorem valid_of_ending {ending : Ending Cursor}
    (has : HasEnding survey.segments.toList location ending) :
    Layout.Valid survey.located location := by
  obtain ⟨segment, found, last, _⟩ := has.rename survey.slots.idxOf (survey.placed.getD · default)
  exact ⟨segment, found, Nat.le_of_eq last⟩

theorem acts_valid {grid : Grid} {cursor : Cursor} (acts : Acts grid survey cursor location) :
    Layout.Valid survey.located location := by
  unfold Acts at acts
  split at acts
  · exact valid_of_ending acts
  · exact valid_of_ending acts
  · exact valid_of_ending acts
  · exact valid_of_command acts.1

theorem settles_valid {grid : Grid} {cells : Nat} {cursor : Cursor}
    (settles : Settles grid survey location cells cursor) :
    Layout.Valid survey.located location := by
  induction settles with
  | acts acts => exact acts_valid acts
  | passes _ _ _ ih => exact ih

end Located

theorem targets_map {τ υ : Type} (f : τ → υ) (ending : Ending τ) :
    (ending.map f).targets = ending.targets.map f := by
  cases ending <;> rfl

theorem target_placed (grid : Grid) {segment : Segment Point Cursor} {target : Cursor}
    (present : segment ∈ (ofGrid grid).segments.toList) (leads : target ∈ segment.ending.targets) :
    ∃ place, (ofGrid grid).placed[target]? = some place ∧
      (ofGrid grid).placed.getD target default = place := by
  obtain ⟨place, held⟩ := mem_iff_exists.mp (ofGrid_targets grid segment present target leads)
  refine ⟨place, held, ?_⟩
  rw [Std.ExtTreeMap.getD_eq_getD_getElem?, held]
  rfl

theorem ofGrid_closed (grid : Grid) : Layout.Closed (ofGrid grid).located := by
  intro located member target reached
  obtain ⟨segment, present, rfl⟩ := List.mem_map.mp member
  dsimp only at reached
  rw [targets_map] at reached
  obtain ⟨cursor, leads, rfl⟩ := List.mem_map.mp reached
  obtain ⟨place, held, here⟩ := target_placed grid present leads
  obtain ⟨cells, settles⟩ := ofGrid_settles grid held
  rw [here]
  exact settles_valid settles

end Survey

def Sign.Holds (sign : Sign) (isPositive : Bool) : Prop :=
  ∀ known, sign.known? = some known → known = isPositive

theorem Sign.ofPositive_holds (isPositive : Bool) : (ofPositive isPositive).Holds isPositive := by
  cases isPositive <;> simp [Holds, ofPositive, known?]

def Move.pick (isPositive : Bool) : Move → Cursor
  | .go next => next
  | .fork positive nonPositive => if isPositive then positive else nonPositive

def Move.ending : Move → Ending Cursor
  | .go next => .jump next
  | .fork positive nonPositive => .branch positive nonPositive

namespace Cursor
variable {grid : Grid} {cursor : Cursor} {isPositive : Bool}

-- A cursor that describes a pointer over a memory with the given sign.
structure Describes (cursor : Cursor) (pointer : InstructionPointer) (isPositive : Bool) : Prop where
  pointer : pointer = ⟨cursor.point, cursor.heading⟩
  sign : cursor.sign.Holds isPositive

theorem advance_describes {sign : Sign} (holds : sign.Holds isPositive) (grid : Grid) (point : Point)
    (heading : Direction) (skipping : Bool) :
    let next := (advance grid point heading sign skipping).pick isPositive
    next.Describes ⟨(grid.step point heading).resolve isPositive, heading⟩ isPositive ∧
      next.skipping = skipping := by
  unfold advance
  cases grid.step point heading with
  | fixed landing => exact ⟨⟨rfl, holds⟩, rfl⟩
  | corner positive nonPositive =>
    cases known : sign.known? with
    | some isKnown =>
      obtain rfl := holds isKnown known
      exact ⟨⟨rfl, holds⟩, rfl⟩
    | none =>
      cases isPositive with
      | true => exact ⟨⟨rfl, Sign.ofPositive_holds true⟩, rfl⟩
      | false => exact ⟨⟨rfl, Sign.ofPositive_holds false⟩, rfl⟩

theorem reflect_describes (holds : cursor.sign.Holds isPositive) (grid : Grid) (mirror : Mirror) :
    let heading := mirror.reflect isPositive cursor.heading
    let next := (cursor.reflect grid mirror).pick isPositive
    next.Describes ⟨(grid.step cursor.point heading).resolve isPositive, heading⟩ isPositive ∧
      next.skipping = false := by
  have advances := advance_describes holds grid cursor.point
  unfold reflect
  dsimp only
  split
  · rename_i same
    have turned : mirror.reflect isPositive cursor.heading = mirror.reflect true cursor.heading := by
      cases isPositive with
      | true => rfl
      | false => exact same.symm
    rw [turned]
    exact advances _ false
  · split
    · rename_i known
      obtain rfl := holds true known
      exact advances _ false
    · rename_i known
      obtain rfl := holds false known
      exact advances _ false
    · cases isPositive with
      | true => exact ⟨⟨rfl, Sign.ofPositive_holds true⟩, rfl⟩
      | false => exact ⟨⟨rfl, Sign.ofPositive_holds false⟩, rfl⟩

theorem deed_exit (done : cursor.deed grid = .exit) :
    Opcode.decode (grid.get cursor.point) = .terminate := by
  unfold deed at done
  split at done
  · cases done
  · split at done <;> first | assumption | cases done

theorem deed_pass {move : Move} (awake : cursor.skipping = false)
    (done : cursor.deed grid = .pass move) :
    (Opcode.decode (grid.get cursor.point) = .nop ∧
        move = advance grid cursor.point cursor.heading cursor.sign false) ∨
      (Opcode.decode (grid.get cursor.point) = .skip ∧
        move = advance grid cursor.point cursor.heading cursor.sign true) ∨
      ∃ mirror, Opcode.decode (grid.get cursor.point) = .mirror mirror ∧
        move = cursor.reflect grid mirror := by
  unfold deed at done
  rw [awake] at done
  cases instruction : Opcode.decode (grid.get cursor.point) <;> rw [instruction] at done <;> cases done
  · exact .inl ⟨rfl, rfl⟩
  · exact .inr (.inr ⟨_, rfl, rfl⟩)
  · exact .inr (.inl ⟨rfl, rfl⟩)

theorem deed_skipping (asleep : cursor.skipping = true) :
    cursor.deed grid = .pass (advance grid cursor.point cursor.heading cursor.sign false) := by
  rw [deed, if_pos asleep]

end Cursor

namespace Survey
open Segment

def travel (grid : Grid) (commands : Nat → Opcode) : Journey Location → Journey Location :=
  Journey.step (act? (ofGrid grid).located) commands

structure Comes (grid : Grid) (commands : Nat → Opcode) (machine : Machine) (location : Location)
    (next : Cursor) (steps : Nat) (place : Location) (cells : Nat) : Prop where
  reached : (travel grid commands)^[steps] ⟨location, machine, false⟩ = ⟨place, machine, false⟩
  placed : (ofGrid grid).placed[next]? = some place
  settles : Settles grid (ofGrid grid) place cells next

section Travel
variable {grid : Grid} {location : Location} {move : Move} {cells : Nat} {cursor : Cursor}

theorem ending_comes (ends : HasEnding (ofGrid grid).segments.toList location move.ending)
    (commands : Nat → Opcode) (machine : Machine) :
    ∃ place cells,
      Comes grid commands machine location (move.pick machine.isPositive) 1 place cells := by
  have act := act?_located_ending ends
  obtain ⟨segment, found, _, same⟩ := ends
  have present := List.mem_of_getElem? found
  have placed (target : Cursor) (leads : target ∈ move.ending.targets) :=
    target_placed grid present (same ▸ leads)
  cases move with
  | go next =>
    obtain ⟨place, held, here⟩ := placed next List.mem_cons_self
    obtain ⟨cells, settles⟩ := ofGrid_settles grid held
    refine ⟨place, cells, ?_, held, settles⟩
    simp only [Move.ending, Ending.map, here] at act
    exact Journey.step_jump act
  | fork positive nonPositive =>
    obtain ⟨upper, upperHeld, upperHere⟩ := placed positive (by simp [Move.ending, Ending.targets])
    obtain ⟨lower, lowerHeld, lowerHere⟩ :=
      placed nonPositive (by simp [Move.ending, Ending.targets])
    simp only [Move.ending, Ending.map, upperHere, lowerHere] at act
    have step : travel grid commands ⟨location, machine, false⟩ =
        ⟨if machine.isPositive then upper else lower, machine, false⟩ := Journey.step_branch act
    cases sign : machine.isPositive with
    | true =>
      obtain ⟨cells, settles⟩ := ofGrid_settles grid upperHeld
      rw [sign] at step
      exact ⟨upper, cells, step, upperHeld, settles⟩
    | false =>
      obtain ⟨cells, settles⟩ := ofGrid_settles grid lowerHeld
      rw [sign] at step
      exact ⟨lower, cells, step, lowerHeld, settles⟩

-- A cell that is passed costs the journey at most one step, and none only if there are fewer cells
-- left to pass.
theorem pass_comes (passes : cursor.deed grid = .pass move)
    (settles : Settles grid (ofGrid grid) location cells cursor) (commands : Nat → Opcode)
    (machine : Machine) :
    ∃ steps place later, steps ≤ 1 ∧ (steps = 0 → later < cells) ∧
      Comes grid commands machine location (move.pick machine.isPositive) steps place later := by
  cases settles with
  | acts acts =>
    have ends : HasEnding (ofGrid grid).segments.toList location move.ending := by
      unfold Acts at acts
      rw [passes] at acts
      cases move <;> exact acts
    obtain ⟨place, later, comes⟩ := ending_comes ends commands machine
    exact ⟨1, place, later, Nat.le_refl _, by simp, comes⟩
  | passes goes placed settles =>
    rw [goes] at passes
    cases passes
    exact ⟨0, location, _, by simp, fun _ => Nat.lt_succ_self _, rfl, placed, settles⟩

theorem leads_comes (leads : Leads (ofGrid grid) location move) (commands : Nat → Opcode)
    (machine : Machine) :
    ∃ steps place later, steps ≤ 1 ∧
      Comes grid commands machine location (move.pick machine.isPositive) steps place later := by
  have settled : (ofGrid grid).placed[move.pick machine.isPositive]? = some location ∨
      HasEnding (ofGrid grid).segments.toList location move.ending := by
    cases move with
    | go next => exact leads
    | fork positive nonPositive => exact .inr leads
  rcases settled with placed | ends
  · obtain ⟨cells, settles⟩ := ofGrid_settles grid placed
    exact ⟨0, location, cells, Nat.zero_le _, rfl, placed, settles⟩
  · obtain ⟨place, later, comes⟩ := ending_comes ends commands machine
    exact ⟨1, place, later, Nat.le_refl _, comes⟩

end Travel

-- A grid with instructions in the cells that the survey of another one has left open.
structure Supplied (grid filled : Grid) (commands : Nat → Opcode) : Prop where
  size : filled.size = grid.size
  traced : ∀ {point}, (Opcode.decode (grid.get point)).isTraced = true →
    filled.get point = grid.get point
  command : ∀ {point}, point ∈ (ofGrid grid).slots →
    .decode (filled.get point) = commands ((ofGrid grid).slots.idxOf point) ∧
      (Opcode.decode (filled.get point)).isControl = false

-- The program is followed by a journey through the segments of the survey. The active pointer is
-- the first one, and a cursor that is placed where the journey is describes it.
structure Tracks (grid filled : Grid) (cells : Nat) (interpreter : Interpreter)
    (journey : Journey Location) : Prop where
  runsOn : interpreter.grid = filled
  active : interpreter.active = 0
  budget : interpreter.clock.budget = none
  seen : journey.seen = interpreter.seen
  cursor : interpreter.clock.halted = false → ∃ cursor : Cursor,
    cursor.Describes interpreter.pointer interpreter.machine.isPositive ∧
      cursor.skipping = false ∧ (ofGrid grid).placed[cursor]? = some journey.place ∧
      Settles grid (ofGrid grid) journey.place cells cursor

section Tracking
variable {grid filled : Grid} {commands : Nat → Opcode} {cells : Nat} {interpreter : Interpreter}
  {journey : Journey Location} {location place : Location} {cursor next : Cursor}

theorem tracks_halt (tracks : Tracks grid filled cells interpreter journey)
    (running : interpreter.clock.halted = false) (ends : interpreter.turn.flow = .halt)
    (place : Location) :
    Tracks grid filled cells interpreter.step ⟨place, interpreter.turn.machine, true⟩ := by
  rw [Interpreter.step_of_running running tracks.budget, Interpreter.perform_of_halt ends]
  exact ⟨tracks.runsOn, tracks.active, tracks.budget, rfl, fun going => by cases going⟩

theorem tracks_proceed (tracks : Tracks grid filled cells interpreter journey)
    (running : interpreter.clock.halted = false) (proceeds : interpreter.turn.flow = .proceed)
    (stays : interpreter.turn.next = interpreter.active)
    (describes : next.Describes
      (Interpreter.advance interpreter.grid interpreter.turn.machine interpreter.turn.pointer)
      interpreter.turn.machine.isPositive)
    (awake : next.skipping = false) (placed : (ofGrid grid).placed[next]? = some place)
    {later : Nat} (settles : Settles grid (ofGrid grid) place later next) :
    Tracks grid filled later interpreter.step ⟨place, interpreter.turn.machine, false⟩ := by
  have moved := Interpreter.pointer_of_proceed proceeds stays
  rw [Interpreter.step_of_running running tracks.budget]
  rw [Interpreter.perform_of_proceed proceeds] at moved ⊢
  refine ⟨tracks.runsOn, stays.trans tracks.active, tracks.budget, ?_, fun _ => ?_⟩
  · simp [Journey.seen, Interpreter.seen, Clock.tick, running]
  · refine ⟨next, ?_, awake, placed, settles⟩
    rw [moved]
    exact describes

theorem traced_opcode (supplied : Supplied grid filled commands)
    (tracks : Tracks grid filled cells interpreter journey) {isPositive : Bool}
    (describes : cursor.Describes interpreter.pointer isPositive)
    (traced : (Opcode.decode (grid.get cursor.point)).isTraced = true) :
    interpreter.opcode = .decode (grid.get cursor.point) := by
  rw [Interpreter.opcode, tracks.runsOn, describes.pointer]
  rw [supplied.traced traced]

theorem advance_eq (supplied : Supplied grid filled commands)
    (tracks : Tracks grid filled cells interpreter journey) (machine : Machine)
    (pointer : InstructionPointer) :
    Interpreter.advance interpreter.grid machine pointer =
      ⟨(grid.step pointer.point pointer.heading).resolve machine.isPositive, pointer.heading⟩ := by
  rw [Interpreter.advance, tracks.runsOn, Grid.step_of_size supplied.size]

theorem made_good {start : Journey Location} {machine : Machine} {steps later : Nat}
    (reached : (travel grid commands)^[steps] start = ⟨place, machine, false⟩) (few : steps ≤ 2)
    (tracks : Tracks grid filled later interpreter ⟨place, machine, false⟩)
    (less : steps = 0 → later < cells)
    (middle : steps = 2 → (travel grid commands start).seen = (machine, false)) :
    MakesGood (travel grid commands) Interpreter.seen Journey.seen 2 (Tracks grid filled) cells
      interpreter start := by
  refine ⟨steps, few, later, ?_, less, ?_⟩
  · rw [reached]
    exact tracks
  · intro i started unfinished
    obtain ⟨rfl, rfl⟩ : i = 1 ∧ steps = 2 := by omega
    rw [← tracks.seen]
    exact middle rfl

section Tick
variable (supplied : Supplied grid filled commands)
  (tracks : Tracks grid filled cells interpreter ⟨location, interpreter.machine, false⟩)
  (running : interpreter.clock.halted = false)
  (settles : Settles grid (ofGrid grid) location cells cursor)

include supplied tracks running settles

theorem exit_made_good (done : cursor.deed grid = .exit)
    (describes : cursor.Describes interpreter.pointer interpreter.machine.isPositive) :
    MakesGood (travel grid commands) Interpreter.seen Journey.seen 2 (Tracks grid filled) cells
      interpreter.step ⟨location, interpreter.machine, false⟩ := by
  have ends : HasEnding (ofGrid grid).segments.toList location .exit := by
    cases settles with
    | acts acts =>
      unfold Acts at acts
      rwa [done] at acts
    | passes goes _ _ =>
      rw [done] at goes
      cases goes
  have instruction := Cursor.deed_exit done
  have executed := traced_opcode supplied tracks describes (by rw [instruction]; rfl)
  have harmless : interpreter.opcode.isControl = false := by rw [executed, instruction]; rfl
  have turn := Interpreter.turn_of_command harmless
  rw [executed, instruction] at turn
  have halts := tracks_halt tracks running (by rw [turn]; rfl) location
  rw [turn] at halts
  apply MakesGood.by_one
  · have step : travel grid commands ⟨location, interpreter.machine, false⟩ = _ :=
      Journey.step_exit (act?_located_ending ends)
    rw [step]
    exact halts
  · decide

theorem steer_made_good {move : Move} (passes : cursor.deed grid = .pass move)
    {pointer : InstructionPointer}
    (turn : interpreter.turn = ⟨.proceed, interpreter.machine, pointer, interpreter.active⟩)
    (moves : (move.pick interpreter.machine.isPositive).Describes
      ⟨(grid.step pointer.point pointer.heading).resolve interpreter.machine.isPositive,
        pointer.heading⟩ interpreter.machine.isPositive)
    (rises : (move.pick interpreter.machine.isPositive).skipping = false) :
    MakesGood (travel grid commands) Interpreter.seen Journey.seen 2 (Tracks grid filled) cells
      interpreter.step ⟨location, interpreter.machine, false⟩ := by
  obtain ⟨steps, place, later, few, less, comes⟩ :=
    pass_comes passes settles commands interpreter.machine
  have proceeds := tracks_proceed tracks running (by rw [turn]) (by rw [turn])
    (by rw [turn, advance_eq supplied tracks]; exact moves) rises comes.placed comes.settles
  rw [turn] at proceeds
  exact made_good comes.reached (by omega) proceeds less (by omega)

-- A skip is two cells passed: its own and the one after it.
theorem skip_made_good
    (passes : cursor.deed grid =
      .pass (Cursor.advance grid cursor.point cursor.heading cursor.sign true))
    (describes : cursor.Describes interpreter.pointer interpreter.machine.isPositive)
    (instruction : interpreter.opcode = .skip) :
    MakesGood (travel grid commands) Interpreter.seen Journey.seen 2 (Tracks grid filled) cells
      interpreter.step ⟨location, interpreter.machine, false⟩ := by
  obtain ⟨first, between, fewer, firstFew, firstLess, comes⟩ :=
    pass_comes passes settles commands interpreter.machine
  obtain ⟨passing, asleep⟩ :=
    Cursor.advance_describes describes.sign grid cursor.point cursor.heading true
  generalize (Cursor.advance grid cursor.point cursor.heading cursor.sign true).pick
    interpreter.machine.isPositive = skipped at comes passing asleep
  obtain ⟨second, place, later, secondFew, secondLess, lands⟩ :=
    pass_comes (Cursor.deed_skipping asleep) comes.settles commands interpreter.machine
  obtain ⟨moves, rises⟩ :=
    Cursor.advance_describes passing.sign grid skipped.point skipped.heading false
  have turn := Interpreter.turn_of_skip instruction
  rw [advance_eq supplied tracks, describes.pointer, passing.pointer] at turn
  have proceeds := tracks_proceed tracks running (by rw [turn]) (by rw [turn])
    (by rw [turn, advance_eq supplied tracks]; exact moves) rises lands.placed lands.settles
  rw [turn] at proceeds
  have reached : (travel grid commands)^[second + first] ⟨location, interpreter.machine, false⟩ =
      ⟨place, interpreter.machine, false⟩ := by
    rw [Function.iterate_add_apply, comes.reached, lands.reached]
  refine made_good reached (by omega) proceeds (by omega) ?_
  intro both
  obtain rfl : first = 1 := by omega
  have once : travel grid commands ⟨location, interpreter.machine, false⟩ = _ := comes.reached
  rw [once]
  rfl

theorem pass_made_good {move : Move} (passes : cursor.deed grid = .pass move)
    (describes : cursor.Describes interpreter.pointer interpreter.machine.isPositive)
    (awake : cursor.skipping = false) :
    MakesGood (travel grid commands) Interpreter.seen Journey.seen 2 (Tracks grid filled) cells
      interpreter.step ⟨location, interpreter.machine, false⟩ := by
  have executed := traced_opcode supplied tracks describes
  rcases Cursor.deed_pass awake passes with
    ⟨instruction, rfl⟩ | ⟨instruction, rfl⟩ | ⟨mirror, instruction, rfl⟩
  · rw [instruction] at executed
    have idle : interpreter.opcode = .nop := executed rfl
    have turn := Interpreter.turn_of_command (by rw [idle]; rfl)
    rw [idle, describes.pointer] at turn
    obtain ⟨moves, rises⟩ :=
      Cursor.advance_describes describes.sign grid cursor.point cursor.heading false
    exact steer_made_good supplied tracks running settles passes turn moves rises
  · rw [instruction] at executed
    exact skip_made_good supplied tracks running settles passes describes (executed rfl)
  · rw [instruction] at executed
    have turn := Interpreter.turn_of_mirror (executed rfl)
    rw [describes.pointer] at turn
    obtain ⟨moves, rises⟩ := Cursor.reflect_describes describes.sign grid mirror
    exact steer_made_good supplied tracks running settles passes turn moves rises

theorem command_made_good {move : Move} (done : cursor.deed grid = .command move)
    (describes : cursor.Describes interpreter.pointer interpreter.machine.isPositive) :
    MakesGood (travel grid commands) Interpreter.seen Journey.seen 2 (Tracks grid filled) cells
      interpreter.step ⟨location, interpreter.machine, false⟩ := by
  obtain ⟨has, leads⟩ : HasCommand (ofGrid grid).segments.toList location cursor.point ∧
      Leads (ofGrid grid) location.next move := by
    cases settles with
    | acts acts =>
      unfold Acts at acts
      rwa [done] at acts
    | passes goes _ _ =>
      rw [done] at goes
      cases goes
  have listed : cursor.point ∈ (ofGrid grid).slots := by
    obtain ⟨segment, found, named⟩ := has
    exact mem_distinct.mpr (List.mem_flatMap.mpr
      ⟨segment, List.mem_of_getElem? found, List.mem_of_getElem? named⟩)
  obtain ⟨_, _, rfl⟩ := Cursor.deed_command done
  obtain ⟨executed, harmless⟩ := supplied.command listed
  have instruction : interpreter.opcode = .decode (filled.get cursor.point) := by
    rw [Interpreter.opcode, tracks.runsOn, describes.pointer]
  have turn := Interpreter.turn_of_command (by rw [instruction]; exact harmless)
  rw [instruction, executed, describes.pointer] at turn
  have step : travel grid commands ⟨location, interpreter.machine, false⟩ = _ :=
    Journey.step_command (act?_located_command has)
  generalize interpreter.machine.execute _ = outcome at turn step
  obtain ⟨flow, machine⟩ := outcome
  cases flow with
  | halt =>
    have halts := tracks_halt tracks running (by rw [turn]) location.next
    rw [turn] at halts
    apply MakesGood.by_one
    · rw [step]
      exact halts
    · decide
  | proceed =>
    obtain ⟨steps, place, later, few, comes⟩ := leads_comes leads commands machine
    have open_ : Sign.unknown.Holds machine.isPositive := fun known impossible => by cases impossible
    obtain ⟨moves, rises⟩ :=
      Cursor.advance_describes open_ grid cursor.point cursor.heading false
    have proceeds := tracks_proceed tracks running (by rw [turn]) (by rw [turn])
      (by rw [turn, advance_eq supplied tracks]; exact moves) rises comes.placed comes.settles
    rw [turn] at proceeds
    have reached : (travel grid commands)^[steps + 1] ⟨location, interpreter.machine, false⟩ =
        ⟨place, machine, false⟩ := by
      rw [Function.iterate_succ_apply, step]
      exact comes.reached
    refine made_good reached (by omega) proceeds (by omega) (fun _ => ?_)
    rw [step]
    rfl

end Tick

theorem tracks_paced (supplied : Supplied grid filled commands) :
    Paced Interpreter.step (travel grid commands) Interpreter.seen Journey.seen 2
      (Tracks grid filled) where
  agree := Tracks.seen
  step := by
    intro cells interpreter journey tracks
    obtain ⟨location, machine, halted⟩ := journey
    obtain ⟨rfl, rfl⟩ := Prod.mk.inj tracks.seen
    cases running : interpreter.clock.halted with
    | true =>
      rw [running] at tracks
      rw [Interpreter.step_of_halted running]
      apply MakesGood.by_one
      · have still : travel grid commands ⟨location, interpreter.machine, true⟩ = _ :=
          Journey.step_halted rfl
        rw [still]
        exact tracks
      · decide
    | false =>
      rw [running] at tracks
      obtain ⟨cursor, describes, awake, _, settles⟩ := tracks.cursor running
      cases done : cursor.deed grid with
      | exit => exact exit_made_good supplied tracks running settles done describes
      | pass move => exact pass_made_good supplied tracks running settles done describes awake
      | command move => exact command_made_good supplied tracks running settles done describes

theorem tracks_start (supplied : Supplied grid filled commands) (input : Input)
    (target : Option String) :
    ∃ cells, Tracks grid filled cells ((Interpreter.ofGrid filled input).setTarget target)
      ⟨⟨0, 0⟩, ({input} : Machine).setTarget target, false⟩ := by
  have placed := ofGrid_start grid
  obtain ⟨cells, settles⟩ := ofGrid_settles grid placed
  refine ⟨cells, rfl, rfl, rfl, rfl, fun _ => ⟨Cursor.start grid, ⟨?_, ?_⟩, rfl, placed, settles⟩⟩
  · change (InstructionPointer.corners filled.size)[0] = _
    rw [supplied.size]
    rfl
  · exact Sign.ofPositive_holds false

end Tracking

theorem ofGrid_slots (grid : Grid) :
    (Scaffold.ofGrid grid).slots =
      (ofGrid grid).slots.map fun position => {position, cell := grid.get position} := by
  rw [Scaffold.ofGrid, Scaffold.ofSurvey]

theorem slot_of_listed {grid : Grid} {point : Point} (listed : point ∈ (ofGrid grid).slots) :
    (Scaffold.ofGrid grid).slots[(ofGrid grid).slots.idxOf point]? =
      some {position := point, cell := grid.get point} := by
  have place := List.idxOf_lt_length_of_mem listed
  rw [ofGrid_slots, List.getElem?_map, List.getElem?_eq_getElem place, List.getElem_idxOf,
    Option.map_some]

theorem supply_traced {grid : Grid} {point : Point} (fills : List Char)
    (traced : (Opcode.decode (grid.get point)).isTraced = true) :
    (grid.supply (Scaffold.ofGrid grid).slots fills).get point = grid.get point := by
  refine Grid.get_supply_of_not_mem ?_
  intro slot member same
  rw [ofGrid_slots] at member
  obtain ⟨position, listed, rfl⟩ := List.mem_map.mp member
  rw [same, mem_slots (ofGrid_sound grid) listed] at traced
  cases traced

theorem supply_supplied {grid : Grid} {fills : List Char} {commands : List Opcode}
    (accepted : (Scaffold.ofGrid grid).commands fills = .ok commands) :
    Supplied grid (grid.supply (Scaffold.ofGrid grid).slots fills)
      (commands.toArray.getD · .nop) where
  size := Grid.supply_size _ _ _
  traced := supply_traced fills
  command := by
    intro point listed
    have cells : Slot.Cells grid (Scaffold.ofGrid grid).slots := slots_cells (ofGrid_sound grid)
    obtain ⟨command, harmless⟩ := Slot.commandsFrom_supply cells accepted (slot_of_listed listed)
    refine ⟨?_, harmless⟩
    rw [Array.getD_eq_getD_getElem?, List.getElem?_toArray, command, Option.getD_some]

end Survey

namespace Replay

theorem ofScaffold_eq_ok {scaffold : Scaffold} {fills : List Char} {input : Input} {replay : Replay}
    (made : ofScaffold scaffold fills input = .ok replay) :
    ∃ commands, scaffold.commands fills = .ok commands ∧
      replay = {nodes := scaffold.nodes.toArray, commands := commands.toArray, machine := {input}} := by
  unfold ofScaffold at made
  cases supplied : scaffold.commands fills with
  | error failure =>
    rw [supplied] at made
    cases made
  | ok commands =>
    rw [supplied] at made
    cases made
    exact ⟨commands, rfl, rfl⟩

theorem seen_of_halted {replay : Replay} {n m : Nat} (first : (step^[n] replay).clock.halted = true)
    (second : (step^[m] replay).clock.halted = true) :
    (step^[n] replay).seen = (step^[m] replay).seen :=
  congrArg seen (iterate_settled (step_of_halted first) (step_of_halted second))

theorem ofGrid_nodes (grid : Grid) :
    (Scaffold.ofGrid grid).nodes = Layout.nodes (Survey.ofGrid grid).located := by
  rw [Scaffold.ofGrid, Scaffold.ofSurvey]

theorem alike_start (grid : Grid) (machine : Machine) :
    Journey.Alike (Segment.act? (Survey.ofGrid grid).located)
      (Layout.Meets (Survey.ofGrid grid).located)
      (Journey.jumps (Segment.act? (Survey.ofGrid grid).located) ⟨0, 0⟩)
      ⟨⟨0, 0⟩, machine, false⟩ ⟨⟨0, none⟩, machine, false⟩ := by
  obtain ⟨cells, settles⟩ := Survey.ofGrid_settles grid (Survey.ofGrid_start grid)
  obtain ⟨segment, found, _⟩ := Survey.settles_valid settles
  exact Journey.alike_running (Layout.meets_start found) machine false

-- The replay shows what the journey through the segments shows, and nothing else.
theorem replay_travels (grid : Grid) (commands : Array Opcode) (machine : Machine) :
    let replay : Replay := {nodes := (Scaffold.ofGrid grid).nodes.toArray, commands, machine}
    let travelled n :=
      ((Survey.travel grid (commands.getD · .nop))^[n] ⟨⟨0, 0⟩, machine, false⟩).seen
    (∀ n, ∃ m ≤ n, (step^[m] replay).seen = travelled n) ∧
      ∀ m, ∃ n, (step^[m] replay).seen = travelled n := by
  intro replay travelled
  have paced := (Layout.nodes_refine (Survey.ofGrid_closed grid)).paced (commands.getD · .nop)
  have unlimited : Unlimited (Layout.nodes (Survey.ofGrid grid).located).toArray commands replay :=
    ⟨by rw [← ofGrid_nodes], rfl, rfl⟩
  have rides : Rides replay ⟨⟨0, none⟩, machine, false⟩ := ⟨rfl, fun _ => rfl⟩
  have ridden (m : Nat) := (rides_run unlimited rides m).1
  constructor
  · intro n
    obtain ⟨m, bound, same⟩ := paced.shows (alike_start grid machine) n
    rw [ridden m] at same
    exact ⟨m, by omega, same⟩
  · intro m
    obtain ⟨n, same⟩ := paced.shown (alike_start grid machine) m
    rw [ridden m] at same
    exact ⟨n, same⟩

-- Everything the program shows is shown by the replay within twice as many steps, and the replay
-- shows nothing else.
theorem replay_equivalent {grid : Grid} {fills : List Char} {input : Input} {made : Replay}
    (accepted : ofScaffold (Scaffold.ofGrid grid) fills input = .ok made)
    (target : Option String) :
    let filled := grid.supply (Scaffold.ofGrid grid).slots fills
    let program := (Interpreter.ofGrid filled input).setTarget target
    let replay := made.setTarget target
    (∀ n, ∃ m ≤ 2 * n, (step^[m] replay).seen = (Interpreter.step^[n] program).seen) ∧
      (∀ m, ∃ n, (step^[m] replay).seen = (Interpreter.step^[n] program).seen) ∧
      ((∃ n, (Interpreter.step^[n] program).clock.halted = true) ↔
        ∃ m, (step^[m] replay).clock.halted = true) ∧
      (∀ n m, (Interpreter.step^[n] program).clock.halted = true →
        (step^[m] replay).clock.halted = true →
          (step^[m] replay).machine = (Interpreter.step^[n] program).machine) ∧
      ∀ n, (Interpreter.step^[n] program).active = 0 := by
  intro filled program replay
  obtain ⟨commands, supplied, rfl⟩ := ofScaffold_eq_ok accepted
  have paced := Survey.tracks_paced (Survey.supply_supplied supplied)
  obtain ⟨cells, tracks⟩ := Survey.tracks_start (Survey.supply_supplied supplied) input target
  obtain ⟨replays, replayed⟩ :=
    replay_travels grid commands.toArray (({input} : Machine).setTarget target)
  have forth (n : Nat) :
      ∃ m ≤ 2 * n, (step^[m] replay).seen = (Interpreter.step^[n] program).seen := by
    obtain ⟨middle, bound, same⟩ := paced.shows tracks n
    obtain ⟨m, less, shown⟩ := replays middle
    exact ⟨m, Nat.le_trans less bound, shown.trans same⟩
  have back (m : Nat) : ∃ n, (step^[m] replay).seen = (Interpreter.step^[n] program).seen := by
    obtain ⟨middle, shown⟩ := replayed m
    obtain ⟨n, same⟩ := paced.shown tracks middle
    exact ⟨n, shown.trans same⟩
  refine ⟨forth, back, ⟨?_, ?_⟩, ?_, ?_⟩
  · rintro ⟨n, ceased⟩
    obtain ⟨m, _, same⟩ := forth n
    exact ⟨m, (Prod.mk.inj same).2.trans ceased⟩
  · rintro ⟨m, ceased⟩
    obtain ⟨n, same⟩ := back m
    exact ⟨n, (Prod.mk.inj same).2.symm.trans ceased⟩
  · intro n m ceased ended
    obtain ⟨other, _, same⟩ := forth n
    have stopped := seen_of_halted ended ((Prod.mk.inj same).2.trans ceased)
    exact (Prod.mk.inj (stopped.trans same)).1
  · intro n
    obtain ⟨_, _, _, reached⟩ := paced.keeps_up tracks n
    exact reached.active

-- A placeholder that is supplied, a command of its own, a corner where the sign decides and an end.
theorem replay_equivalent_supplied :
    let grid := (Grid.blank 2).refill ['?', ')', '@']
    let program := Interpreter.ofGrid (grid.supply (Scaffold.ofGrid grid).slots ['(']) {}
    ∃ made, ofScaffold (Scaffold.ofGrid grid) ['('] {} = .ok made ∧
      (∀ n, ∃ m ≤ 2 * n, (step^[m] (made.setTarget none)).seen =
        (Interpreter.step^[n] (program.setTarget none)).seen) ∧
      ∀ m, ∃ n, (step^[m] (made.setTarget none)).seen =
        (Interpreter.step^[n] (program.setTarget none)).seen := by
  intro grid program
  have supplied : (Scaffold.ofGrid grid).commands ['('] = .ok [.decrement, .increment] := by
    decide +kernel
  have accepted : ofScaffold (Scaffold.ofGrid grid) ['('] {} = .ok
      {nodes := (Scaffold.ofGrid grid).nodes.toArray, commands := #[.decrement, .increment]
       machine := {}} := by
    rw [ofScaffold, supplied]
    rfl
  obtain ⟨forth, back, _⟩ := replay_equivalent accepted none
  exact ⟨_, accepted, forth, back⟩

end Replay
end Hexagony
