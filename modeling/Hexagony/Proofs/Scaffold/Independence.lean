import Hexagony.Proofs.Scaffold.Equivalence

namespace Hexagony

-- What a cell means to the control flow. Commands and pointer switches are all alike.
inductive CellKind where
  | idle
  | exit
  | skip
  | mirror (char : Char)
  | command
  deriving DecidableEq

namespace CellKind

def mirrors : List Char := ['/', '\\', '_', '|', '<', '>']

def ofChar (char : Char) : CellKind :=
  if char = '.' ∨ char = '\x00' then .idle
  else if char = '@' then .exit
  else if char = '$' then .skip
  else if char ∈ mirrors then .mirror char
  else .command

def opcode? : CellKind → Option Opcode
  | idle => some .nop
  | exit => some .terminate
  | skip => some .skip
  | mirror char => some (.decode char)
  | command => none

variable {char left right : Char}

theorem symbol_of_traced {opcode : Opcode} (named : Opcode.ofSymbol? char = some opcode)
    (traced : opcode.isTraced = true) : (char = '.' ∨ char = '\x00') ∨ char = '@' ∨ char = '$' := by
  unfold Opcode.ofSymbol? at named
  split at named <;> cases named <;> simp_all [Opcode.isTraced]

theorem mirror_of_ofChar? {found : Mirror} (turns : Mirror.ofChar? char = some found) :
    char ∈ mirrors := by
  unfold Mirror.ofChar? at turns
  split at turns <;> simp_all [mirrors]

theorem not_traced (busy : ¬(char = '.' ∨ char = '\x00')) (stays : char ≠ '@')
    (executed : char ≠ '$') (straight : char ∉ mirrors) :
    (Opcode.decode char).isTraced = false := by
  unfold Opcode.decode
  cases turns : Mirror.ofChar? char with
  | some found => exact absurd (mirror_of_ofChar? turns) straight
  | none =>
    cases named : Opcode.ofSymbol? char with
    | none =>
      dsimp only
      split <;> rfl
    | some opcode =>
      cases traced : opcode.isTraced with
      | false => rfl
      | true =>
        rcases symbol_of_traced named traced with idle | exits | skips
        · exact absurd idle busy
        · exact absurd exits stays
        · exact absurd skips executed

theorem ofChar_cases (char : Char) :
    (ofChar char).opcode? = some (.decode char) ∨
      (ofChar char).opcode? = none ∧ (Opcode.decode char).isTraced = false := by
  unfold ofChar
  by_cases idle : char = '.' ∨ char = '\x00'
  · rcases idle with rfl | rfl <;> exact .inl rfl
  · by_cases exits : char = '@'
    · subst exits
      exact .inl rfl
    · by_cases skips : char = '$'
      · subst skips
        exact .inl rfl
      · rw [if_neg idle, if_neg exits, if_neg skips]
        by_cases turns : char ∈ mirrors
        · rw [if_pos turns]
          exact .inl rfl
        · rw [if_neg turns]
          exact .inr ⟨rfl, not_traced idle exits skips turns⟩

theorem decode_alike (same : ofChar left = ofChar right) :
    Opcode.decode left = Opcode.decode right ∨
      (Opcode.decode left).isTraced = false ∧ (Opcode.decode right).isTraced = false := by
  rcases ofChar_cases left with steers | ⟨vacant, untraced⟩ <;>
    rcases ofChar_cases right with turns | ⟨closed, bare⟩
  · rw [same, turns] at steers
    exact .inl (Option.some.inj steers).symm
  · rw [same, closed] at steers
    cases steers
  · rw [same, turns] at vacant
    cases vacant
  · exact .inr ⟨untraced, bare⟩

end CellKind

structure Grid.SteersLike (left right : Grid) : Prop where
  size : left.size = right.size
  kinds : left.cells.map CellKind.ofChar = right.cells.map CellKind.ofChar

section Steering
variable {left right : Grid}

theorem Grid.SteersLike.get (alike : left.SteersLike right) (point : Point) :
    CellKind.ofChar (left.get point) = CellKind.ofChar (right.get point) := by
  have placed := Grid.indexOf?_congr alike.size point
  rw [Grid.get, Grid.get, placed]
  cases right.indexOf? point with
  | none => rfl
  | some index =>
    have cell : (left.cells.map CellKind.ofChar)[index]? =
        (right.cells.map CellKind.ofChar)[index]? := by
      rw [alike.kinds]
    simp only [Array.getElem?_map, Array.getD_eq_getD_getElem?] at cell ⊢
    cases first : left.cells[index]? <;> cases second : right.cells[index]? <;>
      simp_all

namespace Cursor

theorem advance_of_size (same : left.size = right.size) (point : Point) (heading : Direction)
    (sign : Sign) (skipping : Bool) :
    advance left point heading sign skipping = advance right point heading sign skipping := by
  rw [advance, advance, Grid.step_of_size same]

theorem reflect_of_size (same : left.size = right.size) (cursor : Cursor) (mirror : Mirror) :
    cursor.reflect left mirror = cursor.reflect right mirror := by
  simp only [reflect, settle, advance_of_size same, Grid.step_of_size same]

theorem deed_of_untraced {grid : Grid} {cursor : Cursor} (awake : cursor.skipping = false)
    (untraced : (Opcode.decode (grid.get cursor.point)).isTraced = false) :
    cursor.deed grid = .command (advance grid cursor.point cursor.heading .unknown false) := by
  unfold deed
  rw [awake]
  cases instruction : Opcode.decode (grid.get cursor.point) with
  | nop | terminate | skip | mirror =>
    rw [instruction] at untraced
    cases untraced
  | _ => rfl

theorem deed_alike (alike : left.SteersLike right) (cursor : Cursor) :
    cursor.deed left = cursor.deed right := by
  have advances := advance_of_size alike.size cursor.point cursor.heading
  cases asleep : cursor.skipping with
  | true => rw [deed_skipping asleep, deed_skipping asleep, advances]
  | false =>
    rcases CellKind.decode_alike (alike.get cursor.point) with same | ⟨first, second⟩
    · unfold deed
      rw [same]
      simp only [advances, reflect_of_size alike.size]
    · rw [deed_of_untraced asleep first, deed_of_untraced asleep second, advances]

end Cursor

namespace Survey

theorem follow_alike (alike : left.SteersLike right) (segment fuel : Nat) (placed : Places)
    (commands : Array Point) (cursor : Cursor) :
    follow left segment fuel placed commands cursor =
      follow right segment fuel placed commands cursor := by
  induction fuel generalizing placed commands cursor with
  | zero => rfl
  | succ fuel ih => simp only [follow, Cursor.deed_alike alike, ih]

theorem advance_alike (alike : left.SteersLike right) (survey : Survey) :
    survey.advance left = survey.advance right := by
  have bound : cursorBound left = cursorBound right := by
    rw [cursorBound, cursorBound, alike.size]
  simp only [advance, follow_alike alike, bound]

theorem explore_alike (alike : left.SteersLike right) (fuel : Nat) (survey : Survey) :
    explore left fuel survey = explore right fuel survey := by
  induction fuel generalizing survey with
  | zero => rfl
  | succ fuel ih => simp only [explore, advance_alike alike, ih]

theorem ofGrid_alike (alike : left.SteersLike right) : ofGrid left = ofGrid right := by
  have begins : Cursor.start left = Cursor.start right := by
    rw [Cursor.start, Cursor.start, alike.size]
  rw [ofGrid, ofGrid, explore_alike alike, begins, cursorBound, cursorBound, alike.size]

end Survey
end Steering

-- Programs that steer alike have the same nodes and slots at the same cells, each with its own
-- characters there.
theorem Scaffold.ofGrid_independent {left right : Grid} (alike : left.SteersLike right) :
    (ofGrid left).nodes = (ofGrid right).nodes ∧
      (ofGrid left).slots.map Slot.position = (ofGrid right).slots.map Slot.position ∧
      (∀ slot ∈ (ofGrid left).slots, slot.cell = left.get slot.position) ∧
      ∀ slot ∈ (ofGrid right).slots, slot.cell = right.get slot.position := by
  have same := Survey.ofGrid_alike alike
  have leftCells := Survey.slots_cells (Survey.ofGrid_sound left)
  have rightCells := Survey.slots_cells (Survey.ofGrid_sound right)
  refine ⟨?_, ?_, leftCells.cell, rightCells.cell⟩
  · rw [Replay.ofGrid_nodes, Replay.ofGrid_nodes, same]
  · rw [Survey.ofGrid_slots, Survey.ofGrid_slots, same, List.map_map, List.map_map]
    rfl

-- A pointer switch against a literal, a command against a placeholder, idle cells of both sorts.
theorem Scaffold.ofGrid_independent_switched :
    let left := (Grid.blank 2).refill ['#', ')', '<', '\x00', '.', '@']
    let right := (Grid.blank 2).refill ['a', '?', '<', '.', '\x00', '@']
    left.SteersLike right ∧ (ofGrid left).nodes = (ofGrid right).nodes ∧
      (ofGrid left).slots.map Slot.position = (ofGrid right).slots.map Slot.position ∧
      (ofGrid left).slots ≠ (ofGrid right).slots := by
  intro left right
  have alike : left.SteersLike right := ⟨rfl, by decide +kernel⟩
  obtain ⟨nodes, positions, _⟩ := ofGrid_independent alike
  exact ⟨alike, nodes, positions, by decide +kernel⟩

end Hexagony
