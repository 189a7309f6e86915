import Hexagony.Proofs.Scaffold.Cursor
import Hexagony.Proofs.Scaffold.Segment

namespace Hexagony

namespace Survey
open Segment

structure Extends (earlier later : Survey) : Prop where
  placed : ∀ {cursor : Cursor} {location : Location},
    earlier.placed[cursor]? = some location → later.placed[cursor]? = some location
  segments : ∀ {index : Nat} {segment : Segment Point Cursor}, earlier.segments.toList[index]? = some segment →
    later.segments.toList[index]? = some segment

theorem Extends.refl (survey : Survey) : Extends survey survey := ⟨id, id⟩

theorem Extends.trans {first second third : Survey} (left : Extends first second)
    (right : Extends second third) : Extends first third :=
  ⟨right.placed ∘ left.placed, right.segments ∘ left.segments⟩

theorem mem_iff_exists {survey : Survey} {cursor : Cursor} :
    cursor ∈ survey.placed ↔ ∃ location, survey.placed[cursor]? = some location := by
  rw [Std.ExtTreeMap.mem_iff_isSome_getElem?, Option.isSome_iff_exists]

theorem Extends.mem {earlier later : Survey} (grows : Extends earlier later) {cursor : Cursor}
    (member : cursor ∈ earlier.placed) : cursor ∈ later.placed := by
  obtain ⟨location, held⟩ := mem_iff_exists.mp member
  exact mem_iff_exists.mpr ⟨location, grows.placed held⟩

-- A move comes out at a location: the next cursor is placed there, or the segment ends there with
-- the way to where it is placed.
def Leads (survey : Survey) (location : Location) : Move → Prop
  | .go next => survey.placed[next]? = some location ∨
      HasEnding survey.segments.toList location (.jump next)
  | .fork positive nonPositive =>
      HasEnding survey.segments.toList location (.branch positive nonPositive)

def Acts (grid : Grid) (survey : Survey) (cursor : Cursor) (location : Location) : Prop :=
  match cursor.deed grid with
  | .exit => HasEnding survey.segments.toList location .exit
  | .pass (.go next) => HasEnding survey.segments.toList location (.jump next)
  | .pass (.fork positive nonPositive) =>
    HasEnding survey.segments.toList location (.branch positive nonPositive)
  | .command move => HasCommand survey.segments.toList location cursor.point ∧
      Leads survey location.next move

-- A cursor comes to act at its location after a bounded number of cells that it passes.
inductive Settles (grid : Grid) (survey : Survey) (location : Location) : Nat → Cursor → Prop where
  | acts {cells cursor} (acts : Acts grid survey cursor location) :
      Settles grid survey location cells cursor
  | passes {cells cursor next} (passes : cursor.deed grid = .pass (.go next))
      (placed : survey.placed[next]? = some location)
      (settles : Settles grid survey location cells next) :
      Settles grid survey location (cells + 1) cursor

section Follow
variable {grid : Grid} {segment fuel : Nat} {placed : Places} {commands : Array Point}
  {cursor : Cursor}

theorem getElem?_insert_of_fresh {other : Cursor} {location place : Location}
    (fresh : ¬placed.contains cursor = true) (held : placed[other]? = some place) :
    (placed.insert cursor location)[other]? = some place := by
  rw [Std.ExtTreeMap.getElem?_insert]
  split
  · rename_i tied
    rw [Cursor.eq_of_order tied, Std.ExtTreeMap.contains_eq_isSome_getElem?, held] at fresh
    simp at fresh
  · exact held

theorem getElem?_of_insert {other : Cursor} {location place : Location}
    (held : (placed.insert cursor location)[other]? = some place) :
    (other = cursor ∧ place = location) ∨ placed[other]? = some place := by
  rw [Std.ExtTreeMap.getElem?_insert] at held
  split at held
  · rename_i tied
    exact .inl ⟨(Cursor.eq_of_order tied).symm, (Option.some.inj held).symm⟩
  · exact .inr held

theorem follow_keeps {other : Cursor} {place : Location} (held : placed[other]? = some place) :
    (follow grid segment fuel placed commands cursor).1[other]? = some place := by
  fun_induction follow grid segment fuel placed commands cursor with
  | case1 | case2 => exact held
  | case3 _ _ _ _ fresh | case5 _ _ _ _ fresh | case7 _ _ _ _ fresh =>
    exact getElem?_insert_of_fresh fresh held
  | case4 _ _ _ _ fresh _ _ _ ih | case6 _ _ _ _ fresh _ _ _ ih =>
    exact ih (getElem?_insert_of_fresh fresh held)

theorem follow_commands (grid : Grid) (segment fuel : Nat) (placed : Places)
    (commands : Array Point) (cursor : Cursor) :
    commands.toList <+: (follow grid segment fuel placed commands cursor).2.commands := by
  fun_induction follow grid segment fuel placed commands cursor with
  | case1 | case2 | case3 | case5 => exact List.prefix_rfl
  | case4 _ _ _ _ _ _ _ _ ih => exact ih
  | case6 _ _ commands cursor _ _ _ _ ih =>
    rw [Array.toList_push] at ih
    exact (List.prefix_append _ _).trans ih
  | case7 =>
    rw [Array.toList_push]
    exact List.prefix_append _ _

theorem follow_places (enough : 0 < fuel) (fresh : ¬placed.contains cursor = true) :
    (follow grid segment fuel placed commands cursor).1[cursor]? =
      some ⟨segment, commands.size⟩ := by
  obtain ⟨fuel, rfl⟩ : ∃ less, fuel = less + 1 := ⟨fuel - 1, by omega⟩
  unfold follow
  rw [if_neg fresh]
  dsimp only
  split
  · exact Std.ExtTreeMap.getElem?_insert_self
  · exact follow_keeps Std.ExtTreeMap.getElem?_insert_self
  · exact Std.ExtTreeMap.getElem?_insert_self
  · exact follow_keeps Std.ExtTreeMap.getElem?_insert_self
  · exact Std.ExtTreeMap.getElem?_insert_self

theorem follow_stops (stops : fuel = 0 ∨ placed.contains cursor = true) :
    follow grid segment fuel placed commands cursor =
      (placed, ⟨commands.toList, .jump cursor⟩) := by
  unfold follow
  rcases stops with rfl | old
  · rfl
  · split
    · rfl
    · rw [if_pos old]

structure Records (survey : Survey) (segment : Nat) (followed : Places × Segment Point Cursor) :
    Prop where
  placed : ∀ {cursor : Cursor} {location : Location},
    followed.1[cursor]? = some location → survey.placed[cursor]? = some location
  segment : survey.segments.toList[segment]? = some followed.2

variable {later : Survey}

theorem follow_reaches
    (recorded : Records later segment (follow grid segment fuel placed commands cursor)) :
    (¬placed.contains cursor = true ∧ (follow grid segment fuel placed commands cursor).1[cursor]? =
        some ⟨segment, commands.size⟩) ∨
      HasEnding later.segments.toList ⟨segment, commands.size⟩ (.jump cursor) := by
  by_cases stops : fuel = 0 ∨ placed.contains cursor = true
  · rw [follow_stops stops] at recorded
    exact .inr ⟨_, recorded.segment, Array.length_toList.symm, rfl⟩
  · obtain ⟨enough, fresh⟩ := not_or.mp stops
    exact .inl ⟨fresh, follow_places (by omega) fresh⟩

theorem follow_leads
    (recorded : Records later segment (follow grid segment fuel placed commands cursor)) :
    Leads later ⟨segment, commands.size⟩ (.go cursor) := by
  rcases follow_reaches recorded with ⟨_, found⟩ | ends
  · exact .inl (recorded.placed found)
  · exact .inr ends

theorem follow_has_command {point : Point}
    (recorded : Records later segment
      (follow grid segment fuel placed (commands.push point) cursor)) :
    HasCommand later.segments.toList ⟨segment, commands.size⟩ point := by
  obtain ⟨rest, whole⟩ := follow_commands grid segment fuel placed (commands.push point) cursor
  refine ⟨_, recorded.segment, ?_⟩
  rw [← whole, Array.toList_push]
  simp

theorem follow_settles
    (recorded : Records later segment (follow grid segment fuel placed commands cursor))
    {other : Cursor} {place : Location}
    (found : (follow grid segment fuel placed commands cursor).1[other]? = some place) :
    placed[other]? = some place ∨ ∃ cells, Settles grid later place cells other := by
  fun_induction follow grid segment fuel placed commands cursor generalizing other place with
  | case1 | case2 => exact .inl found
  | case3 _ placed commands cursor _ _ exits =>
    rcases getElem?_of_insert found with ⟨rfl, rfl⟩ | old
    · have ends : HasEnding later.segments.toList ⟨segment, commands.size⟩ .exit :=
        ⟨_, recorded.segment, Array.length_toList.symm, rfl⟩
      exact .inr ⟨0, .acts (by simpa only [Acts, exits] using ends)⟩
    · exact .inl old
  | case4 _ placed commands cursor _ placed' next passes ih =>
    rcases ih recorded found with known | settled
    · rcases getElem?_of_insert known with ⟨rfl, rfl⟩ | old
      · right
        -- The next cursor is placed here as well, or it is where the segment ends.
        rcases follow_reaches recorded with ⟨fresh, reached⟩ | ends
        · rcases ih recorded reached with before | ⟨cells, settled⟩
          · rw [Std.ExtTreeMap.contains_eq_isSome_getElem?, before] at fresh
            simp at fresh
          · exact ⟨cells + 1, .passes passes (recorded.placed reached) settled⟩
        · exact ⟨0, .acts (by simpa only [Acts, passes] using ends)⟩
      · exact .inl old
    · exact .inr settled
  | case5 _ placed commands cursor _ _ positive nonPositive forks =>
    rcases getElem?_of_insert found with ⟨rfl, rfl⟩ | old
    · have ends : HasEnding later.segments.toList ⟨segment, commands.size⟩
          (.branch positive nonPositive) := ⟨_, recorded.segment, Array.length_toList.symm, rfl⟩
      exact .inr ⟨0, .acts (by simpa only [Acts, forks] using ends)⟩
    · exact .inl old
  | case6 _ placed commands cursor _ placed' next commanded ih =>
    rcases ih recorded found with known | settled
    · rcases getElem?_of_insert known with ⟨rfl, rfl⟩ | old
      · have leads := follow_leads recorded
        rw [Array.size_push] at leads
        have acts : HasCommand later.segments.toList ⟨segment, commands.size⟩ _ ∧
            Leads later (Location.next ⟨segment, commands.size⟩) (.go next) :=
          ⟨follow_has_command recorded, leads⟩
        exact .inr ⟨0, .acts (by simpa only [Acts, commanded] using acts)⟩
      · exact .inl old
    · exact .inr settled
  | case7 _ placed commands cursor _ _ positive nonPositive forks =>
    rcases getElem?_of_insert found with ⟨rfl, rfl⟩ | old
    · have ends : HasEnding later.segments.toList (Location.next ⟨segment, commands.size⟩)
          (.branch positive nonPositive) := ⟨_, recorded.segment, by simp [Location.next], rfl⟩
      have command : HasCommand later.segments.toList ⟨segment, commands.size⟩ other.point :=
        ⟨_, recorded.segment, by simp⟩
      exact .inr ⟨0, .acts (by simpa only [Acts, forks, Leads] using And.intro command ends)⟩
    · exact .inl old

theorem insert_inside {location : Location} (inside : ∀ other ∈ placed, other.Inside grid)
    (within : cursor.Inside grid) :
    ∀ other ∈ placed.insert cursor location, other.Inside grid := by
  intro other member
  rcases Std.ExtTreeMap.mem_insert.mp member with tied | old
  · rw [← Cursor.eq_of_order tied]
    exact within
  · exact inside other old

theorem follow_inside (inside : ∀ other ∈ placed, other.Inside grid)
    (within : cursor.Inside grid) :
    (∀ other ∈ (follow grid segment fuel placed commands cursor).1, other.Inside grid) ∧
      ∀ target ∈ (follow grid segment fuel placed commands cursor).2.ending.targets,
        target.Inside grid := by
  fun_induction follow grid segment fuel placed commands cursor with
  | case1 | case2 =>
    refine ⟨inside, ?_⟩
    intro target member
    rw [List.mem_singleton.mp member]
    exact within
  | case3 =>
    refine ⟨insert_inside inside within, ?_⟩
    intro target member
    cases member
  | case4 _ placed _ cursor _ _ next done ih | case6 _ placed _ cursor _ _ next done ih =>
    have onward := Cursor.deed_inside within
    rw [done] at onward
    exact ih (insert_inside inside within) (onward next (List.mem_singleton.mpr rfl))
  | case5 _ _ _ cursor _ _ positive nonPositive done
  | case7 _ _ _ cursor _ _ positive nonPositive done =>
    have onward := Cursor.deed_inside within
    rw [done] at onward
    exact ⟨insert_inside inside within, onward⟩

theorem follow_open :
    ∀ point ∈ (follow grid segment fuel placed commands cursor).2.commands,
      point ∈ commands.toList ∨ (Opcode.decode (grid.get point)).isTraced = false := by
  fun_induction follow grid segment fuel placed commands cursor with
  | case1 | case2 | case3 | case5 => exact fun _ member => .inl member
  | case4 _ _ _ _ _ _ _ _ ih => exact ih
  | case6 _ _ commands cursor _ _ _ done ih =>
    intro point member
    rcases ih point member with before | untraced
    · rw [Array.toList_push] at before
      rcases List.mem_append.mp before with old | new
      · exact .inl old
      · rw [List.mem_singleton.mp new]
        exact .inr (Cursor.deed_command done).2.1
    · exact .inr untraced
  | case7 _ _ commands cursor _ _ _ _ done =>
    intro point member
    rw [Array.toList_push] at member
    rcases List.mem_append.mp member with old | new
    · exact .inl old
    · rw [List.mem_singleton.mp new]
      exact .inr (Cursor.deed_command done).2.1

theorem size_insert_of_fresh {location : Location} (fresh : ¬placed.contains cursor = true) :
    (placed.insert cursor location).size = placed.size + 1 := by
  rw [Std.ExtTreeMap.size_insert, if_neg fresh]

theorem follow_size :
    placed.size ≤ (follow grid segment fuel placed commands cursor).1.size := by
  fun_induction follow grid segment fuel placed commands cursor with
  | case1 | case2 => exact Nat.le_refl _
  | case3 | case5 | case7 => exact Std.ExtTreeMap.size_le_size_insert
  | case4 _ _ _ _ _ _ _ _ ih | case6 _ _ _ _ _ _ _ _ ih =>
    exact Nat.le_trans Std.ExtTreeMap.size_le_size_insert ih

theorem follow_grows (enough : 0 < fuel) (fresh : ¬placed.contains cursor = true) :
    placed.size < (follow grid segment fuel placed commands cursor).1.size := by
  obtain ⟨fuel, rfl⟩ : ∃ less, fuel = less + 1 := ⟨fuel - 1, by omega⟩
  have larger : placed.size < (placed.insert cursor ⟨segment, commands.size⟩).size := by
    rw [size_insert_of_fresh fresh]
    omega
  unfold follow
  rw [if_neg fresh]
  dsimp only
  split
  · exact larger
  · exact Nat.lt_of_lt_of_le larger follow_size
  · exact larger
  · exact Nat.lt_of_lt_of_le larger follow_size
  · exact larger

-- With enough fuel a segment never ends for want of it: each cursor that it places uses up one of
-- the cursors there are.
theorem follow_targets (inside : ∀ other ∈ placed, other.Inside grid)
    (within : cursor.Inside grid) (enough : cursorBound grid < fuel + placed.size) :
    ∀ target ∈ (follow grid segment fuel placed commands cursor).2.ending.targets,
      target ∈ (follow grid segment fuel placed commands cursor).1 ∨
        target ∈ forked (follow grid segment fuel placed commands cursor).2.ending := by
  fun_induction follow grid segment fuel placed commands cursor with
  | case1 placed =>
    have bound := size_le_cursorBound inside
    omega
  | case2 _ _ _ _ old =>
    intro target member
    rw [List.mem_singleton.mp member]
    exact .inl (Std.ExtTreeMap.contains_iff_mem.mp old)
  | case3 =>
    intro target member
    cases member
  | case4 _ placed _ cursor fresh _ next done ih | case6 _ placed _ cursor fresh _ next done ih =>
    have onward := Cursor.deed_inside within
    rw [done] at onward
    refine ih (insert_inside inside within) (onward next (List.mem_singleton.mpr rfl)) ?_
    rw [size_insert_of_fresh fresh]
    omega
  | case5 | case7 => exact fun _ member => .inr member

end Follow
section Explore
variable {grid : Grid} {survey : Survey} {cursor : Cursor} {rest : List Cursor}

def pursue (grid : Grid) (survey : Survey) (cursor : Cursor) : Places × Segment Point Cursor :=
  follow grid survey.segments.size (cursorBound grid + 1) survey.placed #[] cursor

def record (survey : Survey) (rest : List Cursor) (followed : Places × Segment Point Cursor) :
    Survey where
  placed := followed.1
  segments := survey.segments.push followed.2
  pending := forked followed.2.ending ++ rest

theorem advance_cases (grid : Grid) (next : survey.pending = cursor :: rest) :
    (survey.placed.contains cursor = true ∧
        survey.advance grid = {survey with pending := rest}) ∨
      (¬survey.placed.contains cursor = true ∧
        survey.advance grid = survey.record rest (pursue grid survey cursor)) := by
  unfold advance
  rw [next]
  by_cases old : survey.placed.contains cursor = true
  · exact .inl ⟨old, if_pos old⟩
  · exact .inr ⟨old, if_neg old⟩

theorem record_records (survey : Survey) (rest : List Cursor)
    (followed : Places × Segment Point Cursor) :
    Records (survey.record rest followed) survey.segments.size followed := by
  refine ⟨id, ?_⟩
  simp [record]

theorem record_extends (grid : Grid) (survey : Survey) (rest : List Cursor) (cursor : Cursor) :
    Extends survey (survey.record rest (pursue grid survey cursor)) := by
  refine ⟨follow_keeps, ?_⟩
  intro index segment found
  have bound := (List.getElem?_eq_some_iff.mp found).1
  simp only [record, Array.toList_push]
  rw [List.getElem?_append_left bound]
  exact found

theorem advance_extends : Extends survey (survey.advance grid) := by
  cases next : survey.pending with
  | nil =>
    have same : survey.advance grid = survey := by
      unfold advance
      rw [next]
    rw [same]
    exact .refl survey
  | cons cursor rest =>
    rcases advance_cases grid next with ⟨_, stays⟩ | ⟨_, follows⟩
    · rw [stays]
      exact ⟨id, id⟩
    · rw [follows]
      exact record_extends grid survey rest cursor

theorem explore_extends {fuel : Nat} : Extends survey (explore grid fuel survey) := by
  induction fuel generalizing survey with
  | zero => exact .refl survey
  | succ fuel ih =>
    unfold explore
    split
    · exact .refl survey
    · exact advance_extends.trans ih

structure Sound (grid : Grid) (survey : Survey) : Prop where
  inside : ∀ cursor ∈ survey.placed, cursor.Inside grid
  waiting : ∀ cursor ∈ survey.pending, cursor.Inside grid
  settled : ∀ {later : Survey}, Extends survey later → ∀ {cursor : Cursor} {location : Location},
    survey.placed[cursor]? = some location → ∃ cells, Settles grid later location cells cursor
  targets : ∀ segment ∈ survey.segments.toList, ∀ target ∈ segment.ending.targets,
    target ∈ survey.placed ∨ target ∈ survey.pending
  commands : ∀ segment ∈ survey.segments.toList, ∀ point ∈ segment.commands,
    (Opcode.decode (grid.get point)).isTraced = false

theorem initial_sound (grid : Grid) : Sound grid {pending := [Cursor.start grid]} where
  inside := by simp
  waiting := by
    intro cursor member
    rw [List.mem_singleton.mp member]
    exact Cursor.start_inside grid
  settled := by simp
  targets := by simp
  commands := by simp

theorem skip_sound (sound : Sound grid survey) (next : survey.pending = cursor :: rest)
    (old : survey.placed.contains cursor = true) : Sound grid {survey with pending := rest} where
  inside := sound.inside
  waiting := fun other member => sound.waiting other (by simp [next, member])
  settled := fun grows => sound.settled ⟨grows.placed, grows.segments⟩
  targets := by
    intro segment present target member
    rcases sound.targets segment present target member with found | waits
    · exact .inl found
    · rw [next] at waits
      rcases List.mem_cons.mp waits with rfl | later
      · exact .inl (Std.ExtTreeMap.contains_iff_mem.mp old)
      · exact .inr later
  commands := sound.commands

theorem record_waiting (sound : Sound grid survey) (next : survey.pending = cursor :: rest) :
    ∀ other ∈ (survey.record rest (pursue grid survey cursor)).pending, other.Inside grid := by
  have within : cursor.Inside grid := sound.waiting cursor (by simp [next])
  have bounds : ∀ target ∈ (pursue grid survey cursor).2.ending.targets, target.Inside grid :=
    (follow_inside sound.inside within).2
  intro other member
  rcases List.mem_append.mp member with new | old
  · cases ending : (pursue grid survey cursor).2.ending with
    | jump target => simp [ending, forked] at new
    | exit => simp [ending, forked] at new
    | branch positive nonPositive =>
      rw [ending] at bounds new
      exact bounds other new
  · exact sound.waiting other (by simp [next, old])

theorem record_settled (sound : Sound grid survey) {later : Survey}
    (grows : Extends (survey.record rest (pursue grid survey cursor)) later) {other : Cursor}
    {location : Location}
    (found : (survey.record rest (pursue grid survey cursor)).placed[other]? = some location) :
    ∃ cells, Settles grid later location cells other := by
  have here := record_records survey rest (pursue grid survey cursor)
  have recorded : Records later survey.segments.size (pursue grid survey cursor) :=
    ⟨grows.placed ∘ here.placed, grows.segments here.segment⟩
  rcases follow_settles recorded found with old | settled
  · exact sound.settled ((record_extends grid survey rest cursor).trans grows) old
  · exact settled

theorem record_places (survey : Survey) (cursor : Cursor) :
    cursor ∈ (survey.record rest (pursue grid survey cursor)).placed := by
  by_cases old : survey.placed.contains cursor = true
  · exact (record_extends grid survey rest cursor).mem (Std.ExtTreeMap.contains_iff_mem.mp old)
  · exact mem_iff_exists.mpr ⟨_, follow_places (Nat.succ_pos _) old⟩

theorem record_targets (sound : Sound grid survey) (next : survey.pending = cursor :: rest) :
    ∀ segment ∈ (survey.record rest (pursue grid survey cursor)).segments.toList,
      ∀ target ∈ segment.ending.targets,
        target ∈ (survey.record rest (pursue grid survey cursor)).placed ∨
          target ∈ (survey.record rest (pursue grid survey cursor)).pending := by
  have within : cursor.Inside grid := sound.waiting cursor (by simp [next])
  intro segment present target member
  simp only [record, Array.toList_push] at present
  rcases List.mem_append.mp present with old | new
  · rcases sound.targets segment old target member with found | waits
    · exact .inl ((record_extends grid survey rest cursor).mem found)
    · rw [next] at waits
      rcases List.mem_cons.mp waits with rfl | later
      · exact .inl (record_places survey target)
      · exact .inr (List.mem_append_right _ later)
  · rw [List.mem_singleton.mp new] at member
    rcases follow_targets sound.inside within (by omega) target member with found | forks
    · exact .inl found
    · exact .inr (List.mem_append_left _ forks)

theorem record_commands (sound : Sound grid survey) :
    ∀ segment ∈ (survey.record rest (pursue grid survey cursor)).segments.toList,
      ∀ point ∈ segment.commands, (Opcode.decode (grid.get point)).isTraced = false := by
  intro segment present point member
  simp only [record, Array.toList_push] at present
  rcases List.mem_append.mp present with old | new
  · exact sound.commands segment old point member
  · rw [List.mem_singleton.mp new] at member
    rcases follow_open point member with none | untraced
    · simp at none
    · exact untraced

theorem advance_sound (sound : Sound grid survey) : Sound grid (survey.advance grid) := by
  cases next : survey.pending with
  | nil =>
    unfold advance
    rw [next]
    exact sound
  | cons cursor rest =>
    rcases advance_cases grid next with ⟨old, stays⟩ | ⟨_, follows⟩
    · rw [stays]
      exact skip_sound sound next old
    · rw [follows]
      have within : cursor.Inside grid := sound.waiting cursor (by simp [next])
      exact ⟨(follow_inside sound.inside within).1, record_waiting sound next,
        record_settled sound, record_targets sound next, record_commands sound⟩

theorem explore_sound {fuel : Nat} (sound : Sound grid survey) :
    Sound grid (explore grid fuel survey) := by
  induction fuel generalizing survey with
  | zero => exact sound
  | succ fuel ih =>
    unfold explore
    split
    · exact sound
    · exact ih (advance_sound sound)

-- How much is left to do: what is pending, and two ways of a fork for each cursor without a place.
def unfinished (grid : Grid) (survey : Survey) : Nat :=
  survey.pending.length + 2 * (cursorBound grid - survey.placed.size)

theorem forked_length (ending : Ending Cursor) : (forked ending).length ≤ 2 := by
  cases ending <;> simp [forked]

theorem advance_unfinished (sound : Sound grid survey) (next : survey.pending = cursor :: rest) :
    (survey.advance grid).unfinished grid < survey.unfinished grid := by
  rcases advance_cases grid next with ⟨_, stays⟩ | ⟨fresh, follows⟩
  · rw [stays]
    simp [unfinished, next]
  · have bound := size_le_cursorBound (advance_sound sound).inside
    rw [follows] at bound ⊢
    have grows : survey.placed.size < (pursue grid survey cursor).1.size :=
      follow_grows (Nat.succ_pos _) fresh
    have forks := forked_length (pursue grid survey cursor).2.ending
    simp only [unfinished, record, next, List.length_append, List.length_cons] at bound ⊢
    omega

theorem explore_pending {fuel : Nat} (sound : Sound grid survey)
    (enough : survey.unfinished grid ≤ fuel) : (explore grid fuel survey).pending = [] := by
  induction fuel generalizing survey with
  | zero =>
    unfold unfinished at enough
    exact List.eq_nil_of_length_eq_zero (by simp only [explore]; omega)
  | succ fuel ih =>
    unfold explore
    cases next : survey.pending with
    | nil => simpa using next
    | cons cursor rest =>
      have less := advance_unfinished sound next
      simpa using ih (advance_sound sound) (by omega)

end Explore

theorem ofGrid_sound (grid : Grid) : Sound grid (ofGrid grid) :=
  explore_sound (initial_sound grid)

theorem ofGrid_pending (grid : Grid) : (ofGrid grid).pending = [] := by
  refine explore_pending (initial_sound grid) ?_
  simp [unfinished]
  omega

theorem ofGrid_settles (grid : Grid) {cursor : Cursor} {location : Location}
    (placed : (ofGrid grid).placed[cursor]? = some location) :
    ∃ cells, Settles grid (ofGrid grid) location cells cursor :=
  (ofGrid_sound grid).settled (.refl _) placed

theorem ofGrid_targets (grid : Grid) :
    ∀ segment ∈ (ofGrid grid).segments.toList, ∀ target ∈ segment.ending.targets,
      target ∈ (ofGrid grid).placed := by
  intro segment present target member
  rcases (ofGrid_sound grid).targets segment present target member with found | waits
  · exact found
  · rw [ofGrid_pending grid] at waits
    cases waits

theorem ofGrid_start (grid : Grid) :
    (ofGrid grid).placed[Cursor.start grid]? = some ⟨0, 0⟩ := by
  have begun : Extends (advance grid {pending := [Cursor.start grid]}) (ofGrid grid) :=
    explore_extends
  refine begun.placed ?_
  have first : ({pending := [Cursor.start grid]} : Survey).pending = [Cursor.start grid] := rfl
  rcases advance_cases grid first with ⟨old, _⟩ | ⟨fresh, follows⟩
  · simp at old
  · rw [follows]
    exact follow_places (Nat.succ_pos _) fresh

end Survey
end Hexagony
