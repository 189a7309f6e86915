import Hexagony.Proofs.Scaffold.Equivalence

namespace Hexagony

inductive Op where
  | command (point : Point)
  | ending (ending : Ending Cursor)
  deriving DecidableEq

def Segment.ops (segment : Segment Point Cursor) : List Op :=
  segment.commands.map .command ++ [.ending segment.ending]

structure Discovery where
  entries : Places := ∅
  inserted : List Cursor := []
  -- Cursors met since the last operation, in order.
  passed : List Cursor := []
  segments : List (List Op) := []
  ops : List Op := []
  worklist : List Cursor := []
  tracing : Option Cursor := none

namespace Discovery

def ofGrid (grid : Grid) : Discovery := {worklist := [Cursor.start grid]}

def Finished (discovery : Discovery) : Prop :=
  discovery.tracing = none ∧ discovery.worklist = []

def arranged (discovery : Discovery) : Places :=
  discovery.passed.foldl
    (fun entries cursor =>
      entries.insert cursor ⟨discovery.segments.length, discovery.ops.length⟩)
    discovery.entries

def emit (discovery : Discovery) (op : Op) : Discovery :=
  {discovery with
    entries := discovery.arranged
    inserted := discovery.inserted ++ discovery.passed
    passed := []
    ops := discovery.ops ++ [op]}

def close (discovery : Discovery) (ending : Ending Cursor) : Discovery :=
  let emitted := discovery.emit (.ending ending)
  {emitted with
    segments := emitted.segments ++ [emitted.ops]
    ops := []
    worklist := Survey.forked ending ++ emitted.worklist
    tracing := none}

def pass (discovery : Discovery) (cursor : Cursor) : Discovery :=
  {discovery with passed := discovery.passed ++ [cursor]}

def proceed (discovery : Discovery) : Move → Discovery
  | .go next => {discovery with tracing := some next}
  | .fork positive nonPositive => discovery.close (.branch positive nonPositive)

def trace (grid : Grid) (discovery : Discovery) (cursor : Cursor) : Discovery :=
  if cursor ∈ discovery.entries ∨ cursor ∈ discovery.passed then discovery.close (.jump cursor)
  else
    let met := discovery.pass cursor
    match cursor.deed grid with
    | .exit => met.close .exit
    | .pass move => met.proceed move
    | .command move => (met.emit (.command cursor.point)).proceed move

-- One turn of either loop: a cell of the open segment, or else the next cursor that waits.
def step (grid : Grid) (discovery : Discovery) : Discovery :=
  match discovery.tracing, discovery.worklist with
  | some cursor, _ => discovery.trace grid cursor
  | none, [] => discovery
  | none, cursor :: rest =>
    if cursor ∈ discovery.entries then {discovery with worklist := rest}
    else {discovery with worklist := rest, tracing := some cursor}

section Places
variable {discovery : Discovery} {cursor : Cursor}

theorem mem_foldl_insert {entries : Places} {location : Location} {passed : List Cursor} :
    cursor ∈ passed.foldl (fun entries cursor => entries.insert cursor location) entries ↔
      cursor ∈ entries ∨ cursor ∈ passed := by
  induction passed generalizing entries with
  | nil => simp
  | cons first rest ih =>
    rw [List.foldl_cons, ih, Std.ExtTreeMap.mem_insert, Std.LawfulEqCmp.compare_eq_iff_eq,
      List.mem_cons]
    grind

theorem mem_arranged : cursor ∈ discovery.arranged ↔
    cursor ∈ discovery.entries ∨ cursor ∈ discovery.passed := mem_foldl_insert

theorem arranged_pass : (discovery.pass cursor).arranged =
    discovery.arranged.insert cursor ⟨discovery.segments.length, discovery.ops.length⟩ := by
  simp [arranged, pass]

end Places

structure Orderly (grid : Grid) (discovery : Discovery) : Prop where
  once : (discovery.inserted ++ discovery.passed).Nodup
  entered : ∀ cursor, cursor ∈ discovery.entries ↔ cursor ∈ discovery.inserted
  inside : ∀ cursor ∈ discovery.inserted ++ discovery.passed, cursor.Inside grid
  waiting : ∀ cursor ∈ discovery.worklist, cursor.Inside grid
  tracing : ∀ cursor ∈ discovery.tracing, cursor.Inside grid

section Steps
variable {grid : Grid} {discovery : Discovery} {cursor : Cursor}

theorem initial_orderly (grid : Grid) : Orderly grid (ofGrid grid) where
  once := List.nodup_nil
  entered := by simp [ofGrid]
  inside := by simp [ofGrid]
  waiting := by
    intro cursor member
    rw [List.mem_singleton.mp member]
    exact Cursor.start_inside grid
  tracing := by simp [ofGrid]

theorem emit_orderly (orderly : Orderly grid discovery) (op : Op) :
    Orderly grid (discovery.emit op) where
  once := by simpa [emit] using orderly.once
  entered := by
    intro cursor
    simp only [emit, mem_arranged, orderly.entered, List.mem_append]
  inside := by simpa [emit] using orderly.inside
  waiting := orderly.waiting
  tracing := orderly.tracing

theorem close_orderly (orderly : Orderly grid discovery) {ending : Ending Cursor}
    (onward : ∀ target ∈ ending.targets, target.Inside grid) :
    Orderly grid (discovery.close ending) := by
  have emitted := emit_orderly orderly (.ending ending)
  refine ⟨emitted.once, emitted.entered, emitted.inside, ?_, by simp [close]⟩
  intro cursor member
  rcases List.mem_append.mp member with new | old
  · cases ending with
    | jump | exit => cases new
    | branch positive nonPositive => exact onward cursor new
  · exact orderly.waiting cursor old

theorem pass_orderly (orderly : Orderly grid discovery) (within : cursor.Inside grid)
    (fresh : ¬(cursor ∈ discovery.entries ∨ cursor ∈ discovery.passed)) :
    Orderly grid (discovery.pass cursor) where
  once := by
    rw [orderly.entered] at fresh
    simp only [pass]
    rw [← List.append_assoc, List.nodup_append]
    refine ⟨orderly.once, List.nodup_singleton cursor, ?_⟩
    rintro other member _ (last : _ ∈ [cursor]) rfl
    rw [List.mem_singleton.mp last] at member
    exact fresh (List.mem_append.mp member)
  entered := orderly.entered
  inside := by
    intro other member
    simp only [pass] at member
    rw [← List.append_assoc] at member
    rcases List.mem_append.mp member with old | new
    · exact orderly.inside other old
    · rw [List.mem_singleton.mp new]
      exact within
  waiting := orderly.waiting
  tracing := orderly.tracing

theorem proceed_orderly (orderly : Orderly grid discovery) {move : Move}
    (onward : ∀ next ∈ move.ways, next.Inside grid) : Orderly grid (discovery.proceed move) := by
  cases move with
  | fork positive nonPositive => exact close_orderly orderly onward
  | go next =>
    refine ⟨orderly.once, orderly.entered, orderly.inside, orderly.waiting, ?_⟩
    intro cursor same
    cases same
    exact onward next List.mem_cons_self

theorem trace_orderly (orderly : Orderly grid discovery) (within : cursor.Inside grid) :
    Orderly grid (discovery.trace grid cursor) := by
  have onward := Cursor.deed_inside within
  unfold trace
  split
  · refine close_orderly orderly ?_
    intro target member
    rw [List.mem_singleton.mp member]
    exact within
  · rename_i fresh
    have passed := pass_orderly orderly within fresh
    dsimp only
    cases done : cursor.deed grid with
    | exit => exact close_orderly passed (by simp [Ending.targets])
    | pass move =>
      rw [done] at onward
      exact proceed_orderly passed onward
    | command move =>
      rw [done] at onward
      exact proceed_orderly (emit_orderly passed _) onward

theorem step_tracing (opened : discovery.tracing = some cursor) :
    discovery.step grid = discovery.trace grid cursor := by
  rw [step, opened]

theorem step_finished (finished : discovery.Finished) : discovery.step grid = discovery := by
  rw [step, finished.1, finished.2]

theorem step_waiting {rest : List Cursor} (idle : discovery.tracing = none)
    (waits : discovery.worklist = cursor :: rest) :
    discovery.step grid =
      if cursor ∈ discovery.entries then {discovery with worklist := rest}
      else {discovery with worklist := rest, tracing := some cursor} := by
  rw [step, idle, waits]

theorem step_orderly (orderly : Orderly grid discovery) : Orderly grid (discovery.step grid) := by
  cases opened : discovery.tracing with
  | some cursor =>
    rw [step_tracing opened]
    exact trace_orderly orderly (orderly.tracing cursor opened)
  | none =>
    cases waits : discovery.worklist with
    | nil =>
      rw [step_finished ⟨opened, waits⟩]
      exact orderly
    | cons cursor rest =>
      have waiting := orderly.waiting
      rw [waits] at waiting
      obtain ⟨within, later⟩ := List.forall_mem_cons.mp waiting
      rw [step_waiting opened waits]
      split
      · exact ⟨orderly.once, orderly.entered, orderly.inside, later, orderly.tracing⟩
      · refine ⟨orderly.once, orderly.entered, orderly.inside, later, ?_⟩
        intro other same
        cases same
        exact within

theorem iterate_orderly (orderly : Orderly grid discovery) (n : Nat) :
    Orderly grid ((step grid)^[n] discovery) := by
  induction n with
  | zero => exact orderly
  | succ n ih =>
    rw [Function.iterate_succ_apply']
    exact step_orderly ih

theorem Orderly.inserted_once (orderly : Orderly grid discovery) : discovery.inserted.Nodup :=
  (List.nodup_append.mp orderly.once).1

theorem Orderly.inserted_length (orderly : Orderly grid discovery) :
    discovery.inserted.length = discovery.entries.size := by
  have same : discovery.inserted.Perm discovery.entries.keys := by
    rw [List.perm_ext_iff_of_nodup orderly.inserted_once Std.ExtTreeMap.nodup_keys]
    intro cursor
    rw [Std.ExtTreeMap.mem_keys, orderly.entered]
  rw [same.length_eq, Std.ExtTreeMap.length_keys]

theorem Orderly.size_le (orderly : Orderly grid discovery) :
    discovery.entries.size ≤ Survey.cursorBound grid := by
  apply Survey.size_le_cursorBound
  intro cursor member
  exact orderly.inside cursor (List.mem_append_left _ ((orderly.entered cursor).mp member))

-- What is left to do: the cursors that wait, the open segment, and for each cursor that has not
-- been met at most the two ways of a fork.
def unfinished (grid : Grid) (discovery : Discovery) : Nat :=
  2 * discovery.worklist.length + discovery.tracing.toList.length +
    4 * (Survey.cursorBound grid - (discovery.inserted ++ discovery.passed).length)

theorem Orderly.met_le (orderly : Orderly grid discovery) :
    (discovery.inserted ++ discovery.passed).length ≤ Survey.cursorBound grid := by
  have emitted := emit_orderly orderly (.ending .exit)
  have bound := emitted.size_le
  rw [← emitted.inserted_length] at bound
  exact bound

theorem emit_unfinished (grid : Grid) (discovery : Discovery) (op : Op) :
    (discovery.emit op).unfinished grid = discovery.unfinished grid := by
  simp [unfinished, emit]

theorem close_unfinished (grid : Grid) (opened : discovery.tracing = some cursor)
    (ending : Ending Cursor) :
    (discovery.close ending).unfinished grid + 1 =
      discovery.unfinished grid + 2 * (Survey.forked ending).length := by
  simp only [unfinished, close, emit, opened, List.length_append, Option.toList_some,
    Option.toList_none, List.length_cons, List.length_nil]
  omega

theorem pass_unfinished (passed : Orderly grid (discovery.pass cursor)) :
    (discovery.pass cursor).unfinished grid + 4 = discovery.unfinished grid := by
  have bound := passed.met_le
  simp only [unfinished, pass, List.length_append, List.length_cons, List.length_nil] at bound ⊢
  omega

theorem proceed_unfinished (grid : Grid) (opened : discovery.tracing = some cursor) (move : Move) :
    (discovery.proceed move).unfinished grid < discovery.unfinished grid + 4 := by
  cases move with
  | go next => simp [proceed, unfinished, opened]
  | fork positive nonPositive =>
    have closed := close_unfinished grid opened (.branch positive nonPositive)
    simp only [Survey.forked, List.length_cons, List.length_nil] at closed
    simp only [proceed]
    omega

theorem trace_unfinished (orderly : Orderly grid discovery)
    (opened : discovery.tracing = some cursor) :
    (discovery.trace grid cursor).unfinished grid < discovery.unfinished grid := by
  unfold trace
  split
  · have closed := close_unfinished grid opened (.jump cursor)
    simp only [Survey.forked, List.length_nil] at closed
    omega
  · rename_i fresh
    -- The cursor that is met pays for all that comes of it.
    have met := pass_unfinished (pass_orderly orderly (orderly.tracing cursor opened) fresh)
    have still : (discovery.pass cursor).tracing = some cursor := opened
    dsimp only
    split
    · have closed := close_unfinished grid still .exit
      simp only [Survey.forked, List.length_nil] at closed
      omega
    · rename_i move _
      have proceeds := proceed_unfinished grid still move
      omega
    · rename_i move _
      have emitted : ((discovery.pass cursor).emit (.command cursor.point)).tracing = some cursor :=
        opened
      have proceeds := proceed_unfinished grid emitted move
      rw [emit_unfinished] at proceeds
      omega

theorem step_unfinished (orderly : Orderly grid discovery) (going : ¬discovery.Finished) :
    (discovery.step grid).unfinished grid < discovery.unfinished grid := by
  cases opened : discovery.tracing with
  | some cursor =>
    rw [step_tracing opened]
    exact trace_unfinished orderly opened
  | none =>
    cases waits : discovery.worklist with
    | nil => exact absurd ⟨opened, waits⟩ going
    | cons cursor rest =>
      rw [step_waiting opened waits]
      split
      · simp [unfinished, opened, waits]
      · simp only [unfinished, opened, waits, List.length_cons, Option.toList_some,
          Option.toList_none, List.length_nil]
        omega

theorem exists_finished {bound : Nat} (orderly : Orderly grid discovery)
    (enough : discovery.unfinished grid ≤ bound) :
    ∃ n ≤ bound, ((step grid)^[n] discovery).Finished := by
  induction bound generalizing discovery with
  | zero =>
    refine ⟨0, Nat.le_refl 0, Classical.byContradiction fun going => ?_⟩
    have less := step_unfinished orderly going
    omega
  | succ bound ih =>
    by_cases finished : discovery.Finished
    · exact ⟨0, Nat.zero_le _, finished⟩
    · have less := step_unfinished orderly finished
      obtain ⟨n, few, reached⟩ := ih (step_orderly orderly) (by omega)
      exact ⟨n + 1, Nat.succ_le_succ few, reached⟩

end Steps

structure Mirrors (survey : Survey) (discovery : Discovery) : Prop where
  entries : discovery.entries = survey.placed
  segments : discovery.segments = survey.segments.toList.map Segment.ops
  worklist : discovery.worklist = survey.pending
  passed : discovery.passed = []
  ops : discovery.ops = []
  tracing : discovery.tracing = none

structure Traces (survey : Survey) (rest : List Cursor) (placed : Places) (commands : Array Point)
    (cursor : Cursor) (discovery : Discovery) : Prop where
  arranged : discovery.arranged = placed
  segments : discovery.segments = survey.segments.toList.map Segment.ops
  worklist : discovery.worklist = rest
  ops : discovery.ops = commands.toList.map .command
  tracing : discovery.tracing = some cursor

section Simulation
variable {grid : Grid} {survey : Survey} {rest : List Cursor} {placed : Places}
  {commands : Array Point} {cursor : Cursor} {discovery : Discovery}

theorem Traces.pass_arranged (traces : Traces survey rest placed commands cursor discovery) :
    (discovery.pass cursor).arranged =
      placed.insert cursor ⟨survey.segments.size, commands.size⟩ := by
  rw [arranged_pass, traces.arranged, traces.segments, traces.ops]
  simp

theorem Traces.pass (traces : Traces survey rest placed commands cursor discovery) (next : Cursor) :
    Traces survey rest (placed.insert cursor ⟨survey.segments.size, commands.size⟩) commands next
      {discovery.pass cursor with tracing := some next} :=
  ⟨traces.pass_arranged, traces.segments, traces.worklist, traces.ops, rfl⟩

theorem Traces.emit (traces : Traces survey rest placed commands cursor discovery) (point : Point)
    (next : Cursor) :
    Traces survey rest placed (commands.push point) next
      {discovery.emit (.command point) with tracing := some next} := by
  refine ⟨traces.arranged, traces.segments, traces.worklist, ?_, rfl⟩
  simp [Discovery.emit, traces.ops]

theorem Traces.close (traces : Traces survey rest placed commands cursor discovery)
    (ending : Ending Cursor) :
    Mirrors (survey.record rest (placed, ⟨commands.toList, ending⟩)) (discovery.close ending) := by
  refine ⟨traces.arranged, ?_, ?_, rfl, rfl, rfl⟩
  · simp [Discovery.close, Discovery.emit, Survey.record, Segment.ops, traces.segments, traces.ops]
  · simp [Discovery.close, Discovery.emit, Survey.record, traces.worklist]

theorem Traces.step_old (traces : Traces survey rest placed commands cursor discovery)
    (old : placed.contains cursor = true) :
    discovery.step grid = discovery.close (.jump cursor) := by
  rw [← traces.arranged, Std.ExtTreeMap.contains_iff_mem] at old
  rw [step_tracing traces.tracing]
  exact if_pos (mem_arranged.mp old)

theorem Traces.step_fresh (traces : Traces survey rest placed commands cursor discovery)
    (fresh : ¬placed.contains cursor = true) :
    discovery.step grid =
      match cursor.deed grid with
      | .exit => (discovery.pass cursor).close .exit
      | .pass move => (discovery.pass cursor).proceed move
      | .command move =>
        ((discovery.pass cursor).emit (.command cursor.point)).proceed move := by
  rw [← traces.arranged, Std.ExtTreeMap.contains_iff_mem] at fresh
  rw [step_tracing traces.tracing]
  exact if_neg fun old => fresh (mem_arranged.mpr old)

theorem trace_mirrors {fuel : Nat} (inside : ∀ other ∈ placed, other.Inside grid)
    (within : cursor.Inside grid) (enough : Survey.cursorBound grid < fuel + placed.size)
    (traces : Traces survey rest placed commands cursor discovery) :
    ∃ n, Mirrors (survey.record rest
      (Survey.follow grid survey.segments.size fuel placed commands cursor))
      ((step grid)^[n] discovery) := by
  fun_induction Survey.follow grid survey.segments.size fuel placed commands cursor
    generalizing discovery with
  | case1 placed =>
    have bound := Survey.size_le_cursorBound inside
    omega
  | case2 _ _ _ _ old =>
    refine ⟨1, ?_⟩
    rw [Function.iterate_one, traces.step_old old]
    exact traces.close _
  | case3 _ _ _ cursor fresh _ =>
    rename_i done
    refine ⟨1, ?_⟩
    rw [Function.iterate_one, traces.step_fresh fresh, done]
    exact (traces.pass cursor).close _
  | case4 _ _ _ cursor fresh _ next done =>
    rename_i ih
    have onward := Cursor.deed_inside within
    rw [done] at onward
    obtain ⟨n, mirrors⟩ := ih (Survey.insert_inside inside within)
      (onward next List.mem_cons_self) (by rw [Survey.size_insert_of_fresh fresh]; omega)
      (traces.pass next)
    refine ⟨n + 1, ?_⟩
    rw [Function.iterate_succ_apply, traces.step_fresh fresh, done]
    exact mirrors
  | case5 _ _ _ cursor fresh _ positive nonPositive =>
    rename_i done
    refine ⟨1, ?_⟩
    rw [Function.iterate_one, traces.step_fresh fresh, done]
    exact (traces.pass cursor).close _
  | case6 _ _ _ cursor fresh _ next done =>
    rename_i ih
    have onward := Cursor.deed_inside within
    rw [done] at onward
    obtain ⟨n, mirrors⟩ := ih (Survey.insert_inside inside within)
      (onward next List.mem_cons_self) (by rw [Survey.size_insert_of_fresh fresh]; omega)
      ((traces.pass cursor).emit cursor.point next)
    refine ⟨n + 1, ?_⟩
    rw [Function.iterate_succ_apply, traces.step_fresh fresh, done]
    exact mirrors
  | case7 _ _ _ cursor fresh _ positive nonPositive =>
    rename_i done
    refine ⟨1, ?_⟩
    rw [Function.iterate_one, traces.step_fresh fresh, done]
    exact ((traces.pass cursor).emit cursor.point cursor).close _

theorem advance_mirrors (sound : Survey.Sound grid survey) (mirrors : Mirrors survey discovery) :
    ∃ n, Mirrors (survey.advance grid) ((step grid)^[n] discovery) := by
  cases next : survey.pending with
  | nil =>
    have same : survey.advance grid = survey := by
      unfold Survey.advance
      rw [next]
    rw [same]
    exact ⟨0, mirrors⟩
  | cons cursor rest =>
    have stepped : discovery.step grid = _ :=
      step_waiting mirrors.tracing (mirrors.worklist.trans next)
    have placed : cursor ∈ discovery.entries ↔ survey.placed.contains cursor = true := by
      rw [mirrors.entries, Std.ExtTreeMap.contains_iff_mem]
    rcases Survey.advance_cases grid next with ⟨old, stays⟩ | ⟨fresh, follows⟩
    · rw [if_pos (placed.mpr old)] at stepped
      refine ⟨1, ?_⟩
      rw [Function.iterate_one, stepped, stays]
      exact ⟨mirrors.entries, mirrors.segments, rfl, mirrors.passed, mirrors.ops, mirrors.tracing⟩
    · rw [if_neg (mt placed.mp fresh)] at stepped
      have traces : Traces survey rest survey.placed #[] cursor
          {discovery with worklist := rest, tracing := some cursor} := by
        refine ⟨?_, mirrors.segments, rfl, mirrors.ops, rfl⟩
        simp [arranged, mirrors.passed, mirrors.entries]
      have enough : Survey.cursorBound grid < Survey.cursorBound grid + 1 + survey.placed.size := by
        omega
      obtain ⟨n, closed⟩ := trace_mirrors sound.inside
        (sound.waiting cursor (by simp [next])) enough traces
      refine ⟨n + 1, ?_⟩
      rw [Function.iterate_succ_apply, stepped, follows]
      exact closed

theorem explore_mirrors {fuel : Nat} (sound : Survey.Sound grid survey)
    (mirrors : Mirrors survey discovery) :
    ∃ n, Mirrors (Survey.explore grid fuel survey) ((step grid)^[n] discovery) := by
  induction fuel generalizing survey discovery with
  | zero => exact ⟨0, mirrors⟩
  | succ fuel ih =>
    unfold Survey.explore
    split
    · exact ⟨0, mirrors⟩
    · obtain ⟨first, advanced⟩ := advance_mirrors sound mirrors
      obtain ⟨second, explored⟩ := ih (Survey.advance_sound sound) advanced
      refine ⟨second + first, ?_⟩
      rw [Function.iterate_add_apply]
      exact explored

end Simulation

theorem ofGrid_mirrors (grid : Grid) :
    ∃ n, Mirrors (Survey.ofGrid grid) ((step grid)^[n] (ofGrid grid)) :=
  explore_mirrors (Survey.initial_sound grid) ⟨rfl, rfl, rfl, rfl, rfl, rfl⟩

theorem finished_mirrors {grid : Grid} {n : Nat}
    (finished : ((step grid)^[n] (ofGrid grid)).Finished) :
    Mirrors (Survey.ofGrid grid) ((step grid)^[n] (ofGrid grid)) := by
  obtain ⟨m, mirrors⟩ := ofGrid_mirrors grid
  have ended : ((step grid)^[m] (ofGrid grid)).Finished :=
    ⟨mirrors.tracing, mirrors.worklist.trans (Survey.ofGrid_pending grid)⟩
  rw [iterate_settled (step_finished finished) (step_finished ended)]
  exact mirrors

theorem target_location {grid : Grid} {segment : Segment Point Cursor} {target : Cursor}
    (present : segment ∈ (Survey.ofGrid grid).segments.toList)
    (leads : target ∈ segment.ending.targets) :
    ∃ location other, (Survey.ofGrid grid).placed[target]? = some location ∧
      (Survey.ofGrid grid).segments.toList[location.segment]? = some other ∧
      location.offset < other.ops.length := by
  obtain ⟨location, held, _⟩ := Survey.target_placed grid present leads
  obtain ⟨cells, settles⟩ := Survey.ofGrid_settles grid held
  obtain ⟨located, found, within⟩ := Survey.settles_valid settles
  obtain ⟨other, here, rfl⟩ := Option.map_eq_some_iff.mp ((List.getElem?_map ..).symm.trans found)
  refine ⟨location, other, held, here, ?_⟩
  rw [List.length_map] at within
  simp only [Segment.ops, List.length_append, List.length_map, List.length_singleton]
  omega

-- Discovery comes to an end. On the way no cursor is inserted into the entries a second time, and
-- there are no more of them than six headings, three signs and two ways of meeting a cell allow. At
-- the end every segment has commands and one ending, whose targets all have a place in a segment.
theorem ofGrid_discovered (grid : Grid) :
    let reached (n : Nat) := (step grid)^[n] (ofGrid grid)
    let survey := Survey.ofGrid grid
    (∃ n ≤ 144 * Shape.cellCount grid.size + 2, (reached n).Finished) ∧
      (∀ n, (reached n).inserted.Nodup ∧
        (∀ cursor, cursor ∈ (reached n).entries ↔ cursor ∈ (reached n).inserted) ∧
        (reached n).entries.size ≤ 36 * Shape.cellCount grid.size) ∧
      survey.pending = [] ∧
      ∀ n, (reached n).Finished →
        (reached n).entries = survey.placed ∧
          (reached n).segments = survey.segments.toList.map Segment.ops ∧
          ∀ ops ∈ (reached n).segments, ∃ (commands : List Point) (ending : Ending Cursor),
            ops = commands.map .command ++ [.ending ending] ∧
              ∀ target ∈ ending.targets, ∃ location other,
                (reached n).entries[target]? = some location ∧
                  (reached n).segments[location.segment]? = some other ∧
                  location.offset < other.length := by
  intro reached survey
  have orderly (n : Nat) : Orderly grid (reached n) := iterate_orderly (initial_orderly grid) n
  refine ⟨?_, ?_, Survey.ofGrid_pending grid, ?_⟩
  · apply exists_finished (initial_orderly grid)
    simp only [unfinished, ofGrid, Survey.cursorBound, List.length_singleton, Option.toList_none,
      List.length_nil, List.append_nil]
    omega
  · intro n
    exact ⟨(orderly n).inserted_once, (orderly n).entered, (orderly n).size_le⟩
  · intro n finished
    have mirrors := finished_mirrors finished
    refine ⟨mirrors.entries, mirrors.segments, ?_⟩
    intro ops present
    rw [mirrors.segments] at present
    obtain ⟨segment, surveyed, rfl⟩ := List.mem_map.mp present
    refine ⟨segment.commands, segment.ending, rfl, ?_⟩
    intro target leads
    obtain ⟨location, other, held, here, within⟩ := target_location surveyed leads
    refine ⟨location, other.ops, ?_, ?_, within⟩
    · rw [mirrors.entries]
      exact held
    · rw [mirrors.segments, List.getElem?_map, here]
      rfl

theorem ofGrid_discovered_joined :
    let grid := (Grid.blank 2).refill ['?', '<']
    let reached := (step grid)^[63] (ofGrid grid)
    let target : Cursor := ⟨⟨0, -1⟩, .southEast, .positive, false⟩
    reached.Finished ∧ [.ending (.jump target)] ∈ reached.segments ∧
      ∃ location other, reached.entries[target]? = some location ∧
        reached.segments[location.segment]? = some other ∧ location.offset < other.length := by
  intro grid reached target
  have finished : reached.Finished := ⟨by decide +kernel, by decide +kernel⟩
  have member : [.ending (.jump target)] ∈ reached.segments := by decide +kernel
  obtain ⟨_, _, _, ended⟩ := ofGrid_discovered grid
  obtain ⟨_, _, shaped⟩ := ended 63 finished
  obtain ⟨commands, ending, same, placed⟩ := shaped _ member
  refine ⟨finished, member, ?_⟩
  cases commands with
  | nil =>
    obtain rfl : Ending.jump target = ending := by simpa using same
    exact placed target List.mem_cons_self
  | cons => simp at same

end Discovery
end Hexagony
