import Hexagony.Proofs.Scaffold.Survey
import Hexagony.Scaffold.Compile

namespace Hexagony

namespace Grid
variable {grid : Grid} {point other : Point}

def put (grid : Grid) (point : Point) (char : Char) : Grid :=
  match grid.indexOf? point with
  | some index =>
    {grid with
      cells := grid.cells.setIfInBounds index char
      cells_size := by rw [Array.size_setIfInBounds, grid.cells_size]}
  | none => grid

@[simp] theorem put_size (grid : Grid) (point : Point) (char : Char) :
    (grid.put point char).size = grid.size := by
  unfold put
  split <;> rfl

theorem put_indexOf? (grid : Grid) (point other : Point) (char : Char) :
    (grid.put point char).indexOf? other = grid.indexOf? other :=
  indexOf?_congr (put_size grid point char) other

theorem get_put (inside : grid.contains point = true) (char : Char) :
    (grid.put point char).get point = char := by
  obtain ⟨index, here⟩ := indexOf?_isSome inside
  have bound := indexOf?_lt here
  rw [get, put_indexOf?, here]
  simp [put, here, bound]

theorem get_put_of_ne (elsewhere : other ≠ point) (char : Char) :
    (grid.put point char).get other = grid.get other := by
  rw [get, put_indexOf?, get]
  cases there : grid.indexOf? other with
  | none => rfl
  | some place =>
    cases here : grid.indexOf? point with
    | none => simp [put, here]
    | some index =>
      have apart : index ≠ place := by
        intro same
        rw [same] at here
        exact elsewhere (indexOf?_injective there here)
      simp [put, here, Array.getD_eq_getD_getElem?, Array.getElem?_setIfInBounds_ne apart]

-- Only the no-op stands outside, so every other cell is inside.
theorem contains_of_not_traced (left : (Opcode.decode (grid.get point)).isTraced = false) :
    grid.contains point = true := by
  cases inside : grid.contains point with
  | true => rfl
  | false =>
    have outside : grid.get point = filler := by rw [get, indexOf?_outside inside]
    have traced : (Opcode.decode filler).isTraced = true := rfl
    rw [outside, traced] at left
    cases left

def supply (grid : Grid) (slots : List Slot) (fills : List Char) : Grid :=
  ((slots.filter Slot.isPlaceholder).zip fills).foldl
    (fun grid (slot, char) => grid.put slot.position char) grid

theorem supply_cons_command {slot : Slot} (held : slot.isPlaceholder = false) (slots : List Slot)
    (fills : List Char) : grid.supply (slot :: slots) fills = grid.supply slots fills := by
  simp [supply, held]

theorem supply_cons_placeholder {slot : Slot} (vacant : slot.isPlaceholder = true)
    (slots : List Slot) (char : Char) (fills : List Char) :
    grid.supply (slot :: slots) (char :: fills) =
      (grid.put slot.position char).supply slots fills := by
  simp [supply, vacant]

theorem supply_size (grid : Grid) (slots : List Slot) (fills : List Char) :
    (grid.supply slots fills).size = grid.size := by
  unfold supply
  induction (slots.filter Slot.isPlaceholder).zip fills generalizing grid with
  | nil => rfl
  | cons _ _ ih => rw [List.foldl_cons, ih, put_size]

theorem get_supply_of_not_mem {slots : List Slot} {fills : List Char}
    (elsewhere : ∀ slot ∈ slots, other ≠ slot.position) :
    (grid.supply slots fills).get other = grid.get other := by
  induction slots generalizing grid fills with
  | nil => rfl
  | cons slot rest ih =>
    have later : ∀ slot ∈ rest, other ≠ slot.position := fun slot member =>
      elsewhere slot (List.mem_cons_of_mem _ member)
    cases vacant : slot.isPlaceholder with
    | false => rw [supply_cons_command vacant, ih later]
    | true =>
      cases fills with
      | nil => simp [supply]
      | cons char fills =>
        rw [supply_cons_placeholder vacant, ih later,
          get_put_of_ne (elsewhere slot List.mem_cons_self)]

end Grid

namespace Slot

theorem command_eq_ok {slot : Nat} {char : Char} {opcode : Opcode} :
    command slot char = .ok opcode ↔ opcode = .decode char ∧ opcode.isControl = false := by
  unfold command
  dsimp only
  split
  · grind
  · grind

theorem both_accepted {first? : Except FillError Opcode} {others? : Except FillError (List Opcode)}
    {commands : List Opcode}
    (accepted : (do let first ← first?; let others ← others?; return first :: others) =
      Except.ok commands) :
    ∃ first others, commands = first :: others ∧ first? = .ok first ∧ others? = .ok others := by
  cases first? with
  | error failure => cases accepted
  | ok first =>
    cases others? with
    | error failure => cases accepted
    | ok others =>
      cases accepted
      exact ⟨first, others, rfl, rfl, rfl⟩

theorem commandsFrom_cons {number : Nat} {slot : Slot} {slots : List Slot} {fills : List Char}
    {commands : List Opcode} (accepted : commandsFrom number (slot :: slots) fills = .ok commands) :
    ∃ char left first others, commands = first :: others ∧ command number char = .ok first ∧
      commandsFrom (number + 1) slots left = .ok others ∧
      ((slot.isPlaceholder = false ∧ char = slot.cell ∧ left = fills) ∨
        (slot.isPlaceholder = true ∧ fills = char :: left)) := by
  unfold commandsFrom at accepted
  cases vacant : slot.isPlaceholder with
  | false =>
    have held : slot.instruction? = some slot.cell := by simp [instruction?, vacant]
    rw [held] at accepted
    obtain ⟨first, others, split, one, rest⟩ := both_accepted accepted
    exact ⟨slot.cell, fills, first, others, split, one, rest, .inl ⟨rfl, rfl, rfl⟩⟩
  | true =>
    have missing : slot.instruction? = none := by simp [instruction?, vacant]
    rw [missing] at accepted
    cases fills with
    | nil => cases accepted
    | cons char left =>
      obtain ⟨first, others, split, one, rest⟩ := both_accepted accepted
      exact ⟨char, left, first, others, split, one, rest, .inr ⟨rfl, rfl⟩⟩

theorem commandsFrom_length {number : Nat} {slots : List Slot} {fills : List Char}
    {commands : List Opcode} (accepted : commandsFrom number slots fills = .ok commands) :
    commands.length = slots.length := by
  induction slots generalizing number fills commands with
  | nil =>
    cases accepted
    rfl
  | cons slot rest ih =>
    obtain ⟨_, _, first, others, rfl, _, remaining, _⟩ := commandsFrom_cons accepted
    rw [List.length_cons, List.length_cons, ih remaining]

structure Cells (grid : Grid) (slots : List Slot) : Prop where
  inside : ∀ slot ∈ slots, grid.contains slot.position = true
  cell : ∀ slot ∈ slots, slot.cell = grid.get slot.position
  apart : (slots.map position).Nodup

theorem Cells.head_apart {grid : Grid} {slot : Slot} {slots : List Slot}
    (cells : Cells grid (slot :: slots)) : ∀ other ∈ slots, slot.position ≠ other.position := by
  have apart := cells.apart
  rw [List.map_cons, List.nodup_cons] at apart
  intro other member same
  exact apart.1 (List.mem_map.mpr ⟨other, member, same.symm⟩)

theorem Cells.tail {grid : Grid} {slot : Slot} {slots : List Slot}
    (cells : Cells grid (slot :: slots)) : Cells grid slots where
  inside := fun other member => cells.inside other (List.mem_cons_of_mem _ member)
  cell := fun other member => cells.cell other (List.mem_cons_of_mem _ member)
  apart := (List.nodup_cons.mp cells.apart).2

theorem Cells.put {grid : Grid} {slot : Slot} {slots : List Slot}
    (cells : Cells grid (slot :: slots)) (char : Char) :
    Cells (grid.put slot.position char) slots where
  inside := by
    intro other member
    rw [Grid.contains, Grid.put_size]
    exact cells.tail.inside other member
  cell := by
    intro other member
    rw [Grid.get_put_of_ne (cells.head_apart other member).symm]
    exact cells.tail.cell other member
  apart := cells.tail.apart

theorem commandsFrom_supply {grid : Grid} {number : Nat} {slots : List Slot} {fills : List Char}
    {commands : List Opcode} (cells : Cells grid slots)
    (accepted : commandsFrom number slots fills = .ok commands) {index : Nat} {slot : Slot}
    (present : slots[index]? = some slot) :
    commands[index]? = some (.decode ((grid.supply slots fills).get slot.position)) ∧
      (Opcode.decode ((grid.supply slots fills).get slot.position)).isControl = false := by
  induction slots generalizing grid number fills commands index with
  | nil => simp at present
  | cons head rest ih =>
    obtain ⟨char, left, first, others, rfl, one, remaining, source⟩ := commandsFrom_cons accepted
    obtain ⟨rfl, harmless⟩ := command_eq_ok.mp one
    rcases source with ⟨held, rfl, rfl⟩ | ⟨vacant, rfl⟩
    · rw [Grid.supply_cons_command held]
      cases index with
      | zero =>
        cases present
        rw [Grid.get_supply_of_not_mem cells.head_apart, ← cells.cell slot List.mem_cons_self]
        exact ⟨rfl, harmless⟩
      | succ index => exact ih cells.tail remaining present
    · rw [Grid.supply_cons_placeholder vacant]
      cases index with
      | zero =>
        cases present
        rw [Grid.get_supply_of_not_mem cells.head_apart,
          Grid.get_put (cells.inside slot List.mem_cons_self)]
        exact ⟨rfl, harmless⟩
      | succ index => exact ih (cells.put char) remaining present

end Slot

namespace Survey

theorem mem_distinct {α : Type} [BEq α] [LawfulBEq α] {a : α} {items : List α} :
    a ∈ distinct items ↔ a ∈ items := by
  induction items with
  | nil => rfl
  | cons first rest ih =>
    by_cases same : a = first <;> simp [distinct, ih, same]

theorem nodup_distinct {α : Type} [BEq α] [LawfulBEq α] (items : List α) :
    (distinct items).Nodup := by
  induction items with
  | nil => exact List.nodup_nil
  | cons first rest ih =>
    refine List.nodup_cons.mpr ⟨?_, ih.filter _⟩
    simp

theorem mem_slots {grid : Grid} {survey : Survey} (sound : Sound grid survey) {point : Point}
    (listed : point ∈ survey.slots) : (Opcode.decode (grid.get point)).isTraced = false := by
  obtain ⟨segment, present, member⟩ := List.mem_flatMap.mp (mem_distinct.mp listed)
  exact sound.commands segment present point member

theorem slots_cells {grid : Grid} {survey : Survey} (sound : Sound grid survey) :
    Slot.Cells grid (Scaffold.ofSurvey grid survey).slots where
  inside := by
    intro slot member
    obtain ⟨point, listed, rfl⟩ := List.mem_map.mp member
    exact Grid.contains_of_not_traced (mem_slots sound listed)
  cell := by
    intro slot member
    obtain ⟨point, _, rfl⟩ := List.mem_map.mp member
    rfl
  apart := by
    have positions : (Scaffold.ofSurvey grid survey).slots.map Slot.position = survey.slots := by
      rw [Scaffold.ofSurvey, List.map_map]
      exact List.map_id _
    rw [positions]
    exact nodup_distinct _

end Survey
end Hexagony
