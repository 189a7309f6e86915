import Hexagony.Proofs.Scaffold.Equivalence

namespace Hexagony

def Sign.after (first : Sign) (offset : Nat) : Sign := if offset = 0 then first else .unknown

theorem Sign.after_known {first : Sign} {offset : Nat} (known : first.after offset ≠ .unknown) :
    offset = 0 ∧ first.after offset = first := by
  by_cases start : offset = 0
  · exact ⟨start, if_pos start⟩
  · exact absurd (if_neg start) known

def Ending.Carries (sign : Sign) : Ending Cursor → Prop
  | .jump target => target.sign = sign
  | .branch positive nonPositive =>
    sign = .unknown ∧ positive.sign = .positive ∧ nonPositive.sign = .nonPositive
  | .exit => True

namespace Cursor
variable {grid : Grid} {cursor : Cursor} {move : Move}

theorem advance_carries (grid : Grid) (point : Point) (heading : Direction) (sign : Sign)
    (skipping : Bool) : (advance grid point heading sign skipping).ending.Carries sign := by
  unfold advance
  cases grid.step point heading with
  | fixed landing => rfl
  | corner positive nonPositive =>
    cases sign with
    | unknown => exact ⟨rfl, rfl, rfl⟩
    | positive => rfl
    | nonPositive => rfl

theorem reflect_carries (grid : Grid) (cursor : Cursor) (mirror : Mirror) :
    (cursor.reflect grid mirror).ending.Carries cursor.sign := by
  unfold reflect
  dsimp only
  split
  · exact advance_carries grid _ _ _ _
  · split
    · exact advance_carries grid _ _ _ _
    · exact advance_carries grid _ _ _ _
    · rename_i known
      refine ⟨?_, rfl, rfl⟩
      cases sign : cursor.sign with
      | unknown => rfl
      | positive | nonPositive => simp [sign, Sign.known?] at known

theorem deed_pass_carries (done : cursor.deed grid = .pass move) :
    move.ending.Carries cursor.sign := by
  cases skipping : cursor.skipping with
  | true =>
    rw [deed_skipping skipping] at done
    cases done
    exact advance_carries grid _ _ _ _
  | false =>
    rcases deed_pass skipping done with ⟨_, rfl⟩ | ⟨_, rfl⟩ | ⟨mirror, _, rfl⟩
    · exact advance_carries grid _ _ _ _
    · exact advance_carries grid _ _ _ _
    · exact reflect_carries grid cursor mirror

theorem deed_command_carries (done : cursor.deed grid = .command move) :
    move.ending.Carries .unknown := by
  obtain ⟨_, _, rfl⟩ := deed_command done
  exact advance_carries grid _ _ _ _

end Cursor

namespace Survey

section Follow
variable {grid : Grid} {segment fuel : Nat} {placed : Places} {commands : Array Point}
  {cursor other : Cursor} {place : Location} {first : Sign}

theorem insert_signs {offset : Nat} (here : cursor.sign = first.after offset)
    (found : (placed.insert cursor ⟨segment, offset⟩)[other]? = some place) :
    placed[other]? = some place ∨
      place.segment = segment ∧ other.sign = first.after place.offset := by
  rcases getElem?_of_insert found with ⟨rfl, rfl⟩ | old
  · exact .inr ⟨rfl, here⟩
  · exact .inl old

theorem follow_signs (first : Sign) (here : cursor.sign = first.after commands.size)
    (found : (follow grid segment fuel placed commands cursor).1[other]? = some place) :
    placed[other]? = some place ∨
      place.segment = segment ∧ other.sign = first.after place.offset := by
  fun_induction follow grid segment fuel placed commands cursor with
  | case1 | case2 => exact .inl found
  | case3 | case5 | case7 => exact insert_signs here found
  | case4 _ placed commands cursor _ _ next done ih =>
    have carried : next.sign = cursor.sign := Cursor.deed_pass_carries done
    rcases ih (carried.trans here) found with known | new
    · exact insert_signs here known
    · exact .inr new
  | case6 _ placed commands cursor _ _ next done ih =>
    have forgotten : next.sign = .unknown := Cursor.deed_command_carries done
    have later : next.sign = first.after (commands.push cursor.point).size := by
      rw [forgotten, Array.size_push]
      rfl
    rcases ih later found with known | new
    · exact insert_signs here known
    · exact .inr new

theorem follow_carries (first : Sign) (here : cursor.sign = first.after commands.size) :
    (follow grid segment fuel placed commands cursor).2.ending.Carries
      (first.after (follow grid segment fuel placed commands cursor).2.commands.length) := by
  fun_induction follow grid segment fuel placed commands cursor with
  | case1 | case2 => exact here
  | case3 => trivial
  | case4 _ _ commands cursor _ _ next done ih =>
    have carried : next.sign = cursor.sign := Cursor.deed_pass_carries done
    exact ih (carried.trans here)
  | case5 _ _ commands cursor _ _ positive nonPositive done =>
    have carried := Cursor.deed_pass_carries done
    rw [here] at carried
    exact carried
  | case6 _ _ commands cursor _ _ next done ih =>
    have forgotten : next.sign = .unknown := Cursor.deed_command_carries done
    apply ih
    rw [forgotten, Array.size_push]
    rfl
  | case7 _ _ commands cursor _ _ positive nonPositive done =>
    have carried := Cursor.deed_command_carries done
    have behind : first.after (commands.push cursor.point).toList.length = .unknown := by
      rw [Array.length_toList, Array.size_push]
      rfl
    rw [behind]
    exact carried

end Follow

-- What is known of the sign at the start of every segment settles it for all cursors.
structure Signed (survey : Survey) (signs : List Sign) : Prop where
  counted : signs.length = survey.segments.size
  known : ∀ sign ∈ signs, sign ≠ .unknown
  waiting : ∀ cursor ∈ survey.pending, cursor.sign ≠ .unknown
  placed : ∀ {cursor : Cursor} {location : Location}, survey.placed[cursor]? = some location →
    ∃ first, signs[location.segment]? = some first ∧ cursor.sign = first.after location.offset
  endings : ∀ segment ∈ survey.segments.toList, ∃ first ∈ signs,
    segment.ending.Carries (first.after segment.commands.length)

section Explore
variable {grid : Grid} {survey : Survey} {signs : List Sign} {cursor : Cursor}
  {rest : List Cursor}

theorem Signed.placed_start (signed : Signed survey signs) {location : Location}
    (known : cursor.sign ≠ .unknown) (held : survey.placed[cursor]? = some location) :
    location.offset = 0 ∧ signs[location.segment]? = some cursor.sign := by
  obtain ⟨first, listed, sign⟩ := signed.placed held
  rw [sign] at known ⊢
  obtain ⟨offset, same⟩ := Sign.after_known known
  exact ⟨offset, by rw [same, listed]⟩

theorem initial_signed (grid : Grid) : Signed {pending := [Cursor.start grid]} [] where
  counted := rfl
  known := by simp
  waiting := by
    intro cursor member
    rw [List.mem_singleton.mp member]
    simp [Cursor.start]
  placed := by simp
  endings := by simp

theorem forked_known {sign : Sign} {ending : Ending Cursor} (carries : ending.Carries sign) :
    ∀ cursor ∈ forked ending, cursor.sign ≠ .unknown := by
  cases ending with
  | jump | exit => simp [forked]
  | branch positive nonPositive =>
    obtain ⟨_, upper, lower⟩ := carries
    simp [forked, upper, lower]

theorem record_signed (signed : Signed survey signs) (next : survey.pending = cursor :: rest) :
    Signed (survey.record rest (pursue grid survey cursor)) (signs ++ [cursor.sign]) := by
  have first : cursor.sign ≠ .unknown := signed.waiting cursor (by simp [next])
  have carries : (pursue grid survey cursor).2.ending.Carries _ :=
    follow_carries cursor.sign rfl
  refine ⟨?_, ?_, ?_, ?_, ?_⟩
  · simp [record, signed.counted]
  · intro sign member
    rcases List.mem_append.mp member with old | new
    · exact signed.known sign old
    · rwa [List.mem_singleton.mp new]
  · intro other member
    rcases List.mem_append.mp member with new | old
    · exact forked_known carries other new
    · exact signed.waiting other (by simp [next, old])
  · intro other location found
    rcases follow_signs cursor.sign rfl found with old | ⟨here, sign⟩
    · obtain ⟨earlier, listed, sign⟩ := signed.placed old
      refine ⟨earlier, ?_, sign⟩
      rw [List.getElem?_append_left (List.getElem?_eq_some_iff.mp listed).1, listed]
    · refine ⟨cursor.sign, ?_, sign⟩
      rw [here, ← signed.counted]
      simp
  · intro segment present
    simp only [record, Array.toList_push] at present
    rcases List.mem_append.mp present with old | new
    · obtain ⟨earlier, listed, carried⟩ := signed.endings segment old
      exact ⟨earlier, List.mem_append_left _ listed, carried⟩
    · rw [List.mem_singleton.mp new]
      exact ⟨cursor.sign, by simp, carries⟩

theorem advance_signed (grid : Grid) (signed : Signed survey signs) :
    ∃ later, Signed (survey.advance grid) later := by
  cases next : survey.pending with
  | nil =>
    unfold advance
    rw [next]
    exact ⟨signs, signed⟩
  | cons cursor rest =>
    rcases advance_cases grid next with ⟨_, stays⟩ | ⟨_, follows⟩
    · rw [stays]
      refine ⟨signs, signed.counted, signed.known, ?_, signed.placed, signed.endings⟩
      exact fun other member => signed.waiting other (by simp [next, member])
    · rw [follows]
      exact ⟨_, record_signed signed next⟩

theorem explore_signed {fuel : Nat} (signed : Signed survey signs) :
    ∃ later, Signed (explore grid fuel survey) later := by
  induction fuel generalizing survey signs with
  | zero => exact ⟨signs, signed⟩
  | succ fuel ih =>
    unfold explore
    split
    · exact ⟨signs, signed⟩
    · obtain ⟨later, advanced⟩ := advance_signed grid signed
      exact ih advanced

end Explore

theorem ofGrid_signed (grid : Grid) : ∃ signs, Signed (ofGrid grid) signs :=
  explore_signed (initial_signed grid)

end Survey

def Node.successors (place : Nat) : Node → List Nat
  | .command _ => [place + 1]
  | .jump target => [target]
  | .branch positive nonPositive => [positive, nonPositive]
  | .loop _ _ | .exit => []

inductive Route (nodes : List Node) : Nat → List Nat → Nat → Prop where
  | stay (place : Nat) : Route nodes place [place] place
  | go {first next last : Nat} {node : Node} {visited : List Nat}
      (held : nodes[first]? = some node) (leads : next ∈ node.successors first)
      (onward : Route nodes next visited last) : Route nodes first (first :: visited) last

namespace Layout

-- A segment without commands leads only to the start of a segment, and a fork, which comes after a
-- command, to the starts of two.
def Heads (segment : Segment Nat Location) : Prop :=
  match segment.ending with
  | .jump target => segment.commands = [] → target.offset = 0
  | .branch positive nonPositive =>
    segment.commands ≠ [] ∧ positive.offset = 0 ∧ nonPositive.offset = 0 ∧
      positive.segment ≠ nonPositive.segment
  | .exit => True

section Heads
variable {segments : List (Segment Nat Location)} {index : Nat} {segment : Segment Nat Location}

theorem target_head (closed : Closed segments) (found : segments[index]? = some segment) :
    target segments ⟨index, 0⟩ = base segments index := by
  simp only [target, blocks_getElem? closed found, Option.map_some, Option.getD_some]
  unfold Block.nodeOf
  cases cyclic : cycle? index segment with
  | none => simp [block, cyclic]
  | some cycle =>
    simp only [block, cyclic, Option.map_some, Option.getD_some]
    split
    · rename_i early
      obtain start : cycle.start = 0 := Nat.le_zero.mp early
      have main : cycle.phase 0 = cycle.mainPhase := by rw [Cycle.mainPhase, start]
      have first : ∀ entries, (cycle.phases entries).idxOf cycle.mainPhase = 0 :=
        fun _ => List.idxOf_cons_self
      rw [main, first, start, Nat.add_zero]
    · rfl

theorem base_succ (closed : Closed segments) (found : segments[index]? = some segment) :
    base segments index < base segments (index + 1) := by
  have laid := blocks_getElem? closed found
  obtain ⟨bound, here⟩ := List.getElem?_eq_some_iff.mp laid
  have grown : base segments (index + 1) = base segments index +
      (block (references segments) index (base segments index) segment).size := by
    have sized := block_nodes_length (closed.looped found) (references segments)
      (base segments index) (target segments)
    rw [← sized, base, List.take_succ_eq_append_getElem bound, here, List.flatMap_append,
      List.length_append, List.flatMap_singleton]
    rfl
  have inhabited : 0 < (block (references segments) index (base segments index) segment).size := by
    unfold Block.size
    cases cyclic : cycle? index segment with
    | none => simp [block, cyclic]
    | some cycle => simp [block, cyclic, Cycle.phases]
  omega

theorem base_lt (closed : Closed segments) {other : Nat} (before : index < other)
    (within : other ≤ segments.length) : base segments index < base segments other := by
  induction other with
  | zero => exact absurd before (Nat.not_lt_zero index)
  | succ other ih =>
    have found := List.getElem?_eq_getElem (Nat.lt_of_succ_le within)
    have next := base_succ closed found
    rcases Nat.lt_or_eq_of_le (Nat.le_of_lt_succ before) with earlier | rfl
    · exact Nat.lt_trans (ih earlier (Nat.le_of_succ_le within)) next
    · exact next

theorem base_injective (closed : Closed segments) {other : Nat} (inside : index < segments.length)
    (within : other < segments.length) (same : base segments index = base segments other) :
    index = other := by
  rcases Nat.lt_trichotomy index other with before | equal | after
  · exact absurd same (Nat.ne_of_lt (base_lt closed before (Nat.le_of_lt within)))
  · exact equal
  · exact absurd same.symm (Nat.ne_of_lt (base_lt closed after (Nat.le_of_lt inside)))

theorem head_cases (closed : Closed segments) (found : segments[index]? = some segment)
    (heads : Heads segment) :
    (∃ slot, (nodes segments)[base segments index]? = some (.command slot)) ∨
      (∃ body phase, (nodes segments)[base segments index]? = some (.loop body phase)) ∨
      (nodes segments)[base segments index]? = some .exit ∨
      ∃ next other, segments[next]? = some other ∧
        (nodes segments)[base segments index]? = some (.jump (base segments next)) := by
  by_cases looped : ∃ cycle, cycle? index segment = some cycle ∧ cycle.start = 0
  · obtain ⟨cycle, cyclic, start⟩ := looped
    have loop := nodes_loop closed found cyclic (cycle.mainPhase_mem _)
    have first : (entered segments index cycle).idxOf cycle.mainPhase = 0 := List.idxOf_cons_self
    rw [first, start] at loop
    exact .inr (.inl ⟨_, _, loop⟩)
  · have before : ∀ cycle, cycle? index segment = some cycle → 0 < cycle.start :=
      fun cycle cyclic => Nat.pos_of_ne_zero fun start => looped ⟨cycle, cyclic, start⟩
    cases commands : segment.commands with
    | cons slot later =>
      have named : segment.commands[0]? = some slot := by rw [commands]; rfl
      exact .inl ⟨slot, nodes_command closed found named before⟩
    | nil =>
      have straight := straight_of_ending closed found (by rw [commands]; exact before)
      have node := nodes_ending closed found straight
      rw [commands, List.length_nil, Nat.add_zero] at node
      unfold Heads at heads
      cases ends : segment.ending with
      | exit =>
        rw [ends] at node
        exact .inr (.inr (.inl node))
      | branch positive nonPositive =>
        rw [ends] at heads
        exact absurd commands heads.1
      | jump location =>
        obtain ⟨other, valid, _⟩ := closed segment (List.mem_of_getElem? found) location
          (by simp [ends, Ending.targets])
        obtain ⟨next, offset⟩ := location
        rw [ends] at heads node
        obtain rfl : offset = 0 := heads commands
        refine .inr (.inr (.inr ⟨next, other, valid, ?_⟩))
        rw [← target_head closed valid]
        exact node

theorem branch_heads (closed : Closed segments) (heads : ∀ segment ∈ segments, Heads segment)
    {place positive nonPositive : Nat}
    (found : (nodes segments)[place]? = some (.branch positive nonPositive)) :
    ∃ upper lower, upper < segments.length ∧ lower < segments.length ∧ upper ≠ lower ∧
      positive = base segments upper ∧ nonPositive = base segments lower := by
  obtain ⟨index, segment, here, command | ending | loop⟩ := nodes_cases closed found
  · obtain ⟨_, _, _, _, _, other⟩ := command
    cases other
  · obtain ⟨_, laid⟩ := ending
    have present := List.mem_of_getElem? here
    have head := heads segment present
    have targets := closed segment present
    unfold Heads at head
    cases ends : segment.ending with
    | jump | exit =>
      rw [ends] at laid
      cases laid
    | branch upper lower =>
      rw [ends] at laid head targets
      cases laid
      obtain ⟨upper, offset⟩ := upper
      obtain ⟨lower, otherOffset⟩ := lower
      obtain ⟨_, upperFound, _⟩ := targets ⟨upper, offset⟩ (by simp [Ending.targets])
      obtain ⟨_, lowerFound, _⟩ := targets ⟨lower, otherOffset⟩ (by simp [Ending.targets])
      obtain ⟨_, rfl, rfl, apart⟩ := head
      exact ⟨upper, lower, (List.getElem?_eq_some_iff.mp upperFound).1,
        (List.getElem?_eq_some_iff.mp lowerFound).1, apart, target_head closed upperFound,
        target_head closed lowerFound⟩
  · obtain ⟨_, _, _, _, other⟩ := loop
    cases other

-- The induction follows the route: as long as it has met no command it is at the start of a
-- segment.
theorem route_commands (closed : Closed segments) (heads : ∀ segment ∈ segments, Heads segment)
    {first last positive nonPositive : Nat} {visited : List Nat}
    (route : Route (nodes segments) first visited last)
    (start : ∃ index < segments.length, first = base segments index)
    (forks : (nodes segments)[last]? = some (.branch positive nonPositive)) :
    ∃ place ∈ visited, ∃ slot, (nodes segments)[place]? = some (.command slot) := by
  induction route with
  | stay place =>
    obtain ⟨index, inside, rfl⟩ := start
    have found := List.getElem?_eq_getElem inside
    rcases head_cases closed found (heads _ (List.getElem_mem inside)) with
      ⟨slot, other⟩ | ⟨body, phase, other⟩ | other | ⟨next, segment, _, other⟩
    all_goals
      rw [other] at forks
      cases forks
  | go held leads onward ih =>
    obtain ⟨index, inside, rfl⟩ := start
    have found := List.getElem?_eq_getElem inside
    rcases head_cases closed found (heads _ (List.getElem_mem inside)) with
      ⟨slot, here⟩ | ⟨body, phase, here⟩ | here | ⟨next, segment, later, here⟩
    · exact ⟨_, List.mem_cons_self, slot, here⟩
    · rw [here] at held
      cases held
      cases leads
    · rw [here] at held
      cases held
      cases leads
    · rw [here] at held
      cases held
      obtain rfl := List.mem_singleton.mp leads
      obtain ⟨place, passed, commands⟩ :=
        ih ⟨next, (List.getElem?_eq_some_iff.mp later).1, rfl⟩ forks
      exact ⟨place, List.mem_cons_of_mem _ passed, commands⟩

end Heads
end Layout

theorem Survey.ofGrid_heads (grid : Grid) :
    ∀ segment ∈ (ofGrid grid).located, Layout.Heads segment := by
  obtain ⟨signs, signed⟩ := ofGrid_signed grid
  intro located member
  obtain ⟨segment, present, rfl⟩ := List.mem_map.mp member
  obtain ⟨first, listed, carries⟩ := signed.endings segment present
  have placed (target : Cursor) (leads : target ∈ segment.ending.targets) :=
    target_placed grid present leads
  unfold Layout.Heads
  cases ends : segment.ending with
  | exit => trivial
  | jump target =>
    rw [ends] at carries placed
    intro bare
    obtain ⟨place, held, here⟩ := placed target (by simp [Ending.targets])
    have commands : segment.commands = [] := by simpa using bare
    have known : target.sign ≠ .unknown := by
      have same : target.sign = first := by
        rw [commands] at carries
        exact carries
      rw [same]
      exact signed.known first listed
    dsimp only [Ending.map]
    rw [here]
    exact (signed.placed_start known held).1
  | branch positive nonPositive =>
    rw [ends] at carries placed
    obtain ⟨unknown, upperSign, lowerSign⟩ := carries
    obtain ⟨upper, upperHeld, upperHere⟩ := placed positive (by simp [Ending.targets])
    obtain ⟨lower, lowerHeld, lowerHere⟩ := placed nonPositive (by simp [Ending.targets])
    obtain ⟨upperStart, upperListed⟩ := signed.placed_start (by simp [upperSign]) upperHeld
    obtain ⟨lowerStart, lowerListed⟩ := signed.placed_start (by simp [lowerSign]) lowerHeld
    dsimp only [Ending.map]
    rw [upperHere, lowerHere]
    refine ⟨?_, upperStart, lowerStart, ?_⟩
    · intro bare
      have commands : segment.commands = [] := by simpa using bare
      rw [commands] at unknown
      exact signed.known first listed unknown
    · intro same
      rw [same, lowerListed, upperSign, lowerSign] at upperListed
      cases upperListed

-- A fork is met only after a command, on every way from the entry and on every way from a fork;
-- and a fork has two ways that are not the same.
theorem Scaffold.ofGrid_forks (grid : Grid) :
    let nodes := (ofGrid grid).nodes
    (∀ {first last upper lower : Nat} {visited : List Nat},
      (first = 0 ∨ ∃ fork positive nonPositive : Nat,
        nodes[fork]? = some (.branch positive nonPositive) ∧ first ∈ [positive, nonPositive]) →
      Route nodes first visited last → nodes[last]? = some (.branch upper lower) →
        ∃ place ∈ visited, ∃ slot, nodes[place]? = some (.command slot)) ∧
      ∀ {place positive nonPositive : Nat},
        nodes[place]? = some (.branch positive nonPositive) → positive ≠ nonPositive := by
  have closed := Survey.ofGrid_closed grid
  have heads := Survey.ofGrid_heads grid
  rw [Replay.ofGrid_nodes]
  constructor
  · intro first last upper lower visited start route forks
    refine Layout.route_commands closed heads route ?_ forks
    rcases start with rfl | ⟨fork, positive, nonPositive, found, way⟩
    · obtain ⟨cells, settles⟩ := Survey.ofGrid_settles grid (Survey.ofGrid_start grid)
      obtain ⟨segment, entry, _⟩ := Survey.settles_valid settles
      exact ⟨0, (List.getElem?_eq_some_iff.mp entry).1, rfl⟩
    · obtain ⟨above, below, aboveInside, belowInside, _, rfl, rfl⟩ :=
        Layout.branch_heads closed heads found
      rcases List.mem_pair.mp way with rfl | rfl
      · exact ⟨above, aboveInside, rfl⟩
      · exact ⟨below, belowInside, rfl⟩
  · intro place positive nonPositive found same
    obtain ⟨above, below, aboveInside, belowInside, apart, rfl, rfl⟩ :=
      Layout.branch_heads closed heads found
    exact apart (Layout.base_injective closed aboveInside belowInside same)

-- From a fork by way of a jump back to the same fork.
theorem Scaffold.ofGrid_forks_again :
    let nodes := (ofGrid ((Grid.blank 2).refill ['?', '<'])).nodes
    nodes[3]? = some (.branch 4 5) ∧ Route nodes 4 [4, 2, 3] 3 ∧
      (∃ place ∈ [4, 2, 3], ∃ slot, nodes[place]? = some (.command slot)) ∧ 4 ≠ 5 := by
  intro nodes
  have fork : nodes[3]? = some (.branch 4 5) := by decide +kernel
  have jump : nodes[4]? = some (.jump 2) := by decide +kernel
  have command : nodes[2]? = some (.command 0) := by decide +kernel
  have route : Route nodes 4 [4, 2, 3] 3 :=
    .go jump (by simp [Node.successors]) (.go command (by simp [Node.successors]) (.stay 3))
  obtain ⟨met, apart⟩ := ofGrid_forks ((Grid.blank 2).refill ['?', '<'])
  exact ⟨fork, route, met (.inr ⟨3, 4, 5, fork, by simp⟩) route fork, apart fork⟩

end Hexagony
