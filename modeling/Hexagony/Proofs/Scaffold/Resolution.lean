import Mathlib.Tactic.Common
import Hexagony.Proofs.Scaffold.Fill

namespace Hexagony

namespace Slot
variable {number index : Nat} {slot : Slot} {slots : List Slot} {fills : List Char}
  {error : FillError} {opcode : Opcode}

def rank (slots : List Slot) (index : Nat) : Nat := (slots.take index).countP isPlaceholder

def resolved? (slots : List Slot) (fills : List Char) (index : Nat) : Option Char :=
  slots[index]?.bind fun slot =>
    if slot.isPlaceholder then fills[rank slots index]? else some slot.cell

inductive Fault (slots : List Slot) (fills : List Char) (index : Nat) : FillError → Prop where
  | missing {slot : Slot} (present : slots[index]? = some slot) (vacant : slot.isPlaceholder = true)
      (few : fills.length ≤ rank slots index) : Fault slots fills index (.missing index)
  | unsupported {char : Char} (holds : resolved? slots fills index = some char)
      (steers : (Opcode.decode char).isControl = true) :
      Fault slots fills index (.unsupported index char)

def leftover (slot : Slot) (fills : List Char) : List Char :=
  if slot.isPlaceholder then fills.tail else fills

theorem resolved?_zero (slot : Slot) (slots : List Slot) (fills : List Char) :
    resolved? (slot :: slots) fills 0 =
      if slot.isPlaceholder then fills.head? else some slot.cell := by
  simp [resolved?, rank, List.head?_eq_getElem?]

theorem resolved?_succ (slot : Slot) (slots : List Slot) (fills : List Char) (index : Nat) :
    resolved? (slot :: slots) fills (index + 1) = resolved? slots (leftover slot fills) index := by
  have shifted (other : Slot) :
      (if other.isPlaceholder then fills[rank (slot :: slots) (index + 1)]? else some other.cell) =
        if other.isPlaceholder then (leftover slot fills)[rank slots index]? else
          some other.cell := by
    cases vacant : slot.isPlaceholder with
    | false => simp [rank, leftover, vacant]
    | true => simp [rank, leftover, vacant]
  rw [resolved?, resolved?, List.getElem?_cons_succ]
  simp only [shifted]

-- The instruction of the slot at an index, or why there is none. The slots are numbered from a given
-- number on, as they are in the rest of a scaffold.
def instructionAt (number : Nat) (slots : List Slot) (fills : List Char) (index : Nat) :
    Except FillError Opcode :=
  match resolved? slots fills index with
  | none => .error (.missing (number + index))
  | some char => command (number + index) char

theorem instructionAt_succ (number : Nat) (slot : Slot) (slots : List Slot) (fills : List Char)
    (index : Nat) :
    instructionAt number (slot :: slots) fills (index + 1) =
      instructionAt (number + 1) slots (leftover slot fills) index := by
  rw [instructionAt, instructionAt, resolved?_succ, Nat.add_right_comm]
  rfl

theorem commandsFrom_step (number : Nat) (slot : Slot) (slots : List Slot) (fills : List Char) :
    commandsFrom number (slot :: slots) fills = (do
      let first ← instructionAt number (slot :: slots) fills 0
      let others ← commandsFrom (number + 1) slots (leftover slot fills)
      return first :: others) := by
  rw [instructionAt, resolved?_zero]
  conv_lhs => unfold commandsFrom
  cases vacant : slot.isPlaceholder with
  | false =>
    have held : slot.instruction? = some slot.cell := by simp [instruction?, vacant]
    simp [held, leftover, vacant]
  | true =>
    have missing : slot.instruction? = none := by simp [instruction?, vacant]
    cases fills with
    | nil =>
      rw [missing]
      rfl
    | cons char fills => simp [missing, leftover, vacant]

-- Either all slots have instructions, or the first one without is reported. The slots and the fills
-- that are left shrink together, so the rank of a later slot counts from the fills that are left.
theorem commandsFrom_cases (number : Nat) (slots : List Slot) (fills : List Char) :
    (∃ commands, commandsFrom number slots fills = .ok commands ∧
      commands.length = slots.length ∧
      ∀ index < slots.length, ∃ opcode, instructionAt number slots fills index = .ok opcode ∧
        commands[index]? = some opcode) ∨
    ∃ index < slots.length, ∃ error, commandsFrom number slots fills = .error error ∧
      instructionAt number slots fills index = .error error ∧
      ∀ earlier < index, ∃ opcode, instructionAt number slots fills earlier = .ok opcode := by
  induction slots generalizing number fills with
  | nil => exact .inl ⟨[], rfl, rfl, by simp⟩
  | cons slot rest ih =>
    rw [commandsFrom_step]
    cases head : instructionAt number (slot :: rest) fills 0 with
    | error error =>
      exact .inr ⟨0, Nat.succ_pos _, error, rfl, head, by simp⟩
    | ok first =>
      rcases ih (number + 1) (leftover slot fills) with
        ⟨others, accepted, sized, each⟩ | ⟨index, inside, error, refused, here, before⟩
      · refine .inl ⟨first :: others, by rw [accepted]; rfl, by simp [sized], ?_⟩
        intro index inside
        cases index with
        | zero => exact ⟨first, head, rfl⟩
        | succ index =>
          rw [instructionAt_succ]
          exact each index (Nat.lt_of_succ_lt_succ inside)
      · refine .inr ⟨index + 1, Nat.succ_lt_succ inside, error, by rw [refused]; rfl, ?_, ?_⟩
        · rw [instructionAt_succ, here]
        · intro earlier sooner
          cases earlier with
          | zero => exact ⟨first, head⟩
          | succ earlier =>
            rw [instructionAt_succ]
            exact before earlier (Nat.lt_of_succ_lt_succ sooner)

theorem command_eq_error {char : Char} :
    command number char = .error error ↔
      (Opcode.decode char).isControl = true ∧ error = .unsupported number char := by
  unfold command
  dsimp only
  split
  · grind
  · grind

theorem Fault.lt (fault : Fault slots fills index error) : index < slots.length := by
  cases fault with
  | missing present _ _ => exact (List.getElem?_eq_some_iff.mp present).1
  | unsupported holds _ =>
    obtain ⟨slot, present, _⟩ := Option.bind_eq_some_iff.mp holds
    exact (List.getElem?_eq_some_iff.mp present).1

theorem resolved?_eq_none (inside : index < slots.length) :
    resolved? slots fills index = none ↔
      ∃ slot, slots[index]? = some slot ∧ slot.isPlaceholder = true ∧
        fills.length ≤ rank slots index := by
  have present := List.getElem?_eq_getElem inside
  rw [resolved?, present]
  cases vacant : slots[index].isPlaceholder <;> simp [vacant]

theorem fault_iff (inside : index < slots.length) :
    Fault slots fills index error ↔ instructionAt 0 slots fills index = .error error := by
  rw [instructionAt, Nat.zero_add]
  constructor
  · intro fault
    cases fault with
    | missing present vacant few =>
      rw [(resolved?_eq_none inside).mpr ⟨_, present, vacant, few⟩]
    | unsupported holds steers =>
      rw [holds]
      exact command_eq_error.mpr ⟨steers, rfl⟩
  · intro refused
    cases held : resolved? slots fills index with
    | none =>
      rw [held] at refused
      cases refused
      obtain ⟨slot, present, vacant, few⟩ := (resolved?_eq_none inside).mp held
      exact .missing present vacant few
    | some char =>
      rw [held] at refused
      obtain ⟨steers, rfl⟩ := command_eq_error.mp refused
      exact .unsupported held steers

theorem instructionAt_eq_ok :
    instructionAt 0 slots fills index = .ok opcode ↔
      ∃ char, resolved? slots fills index = some char ∧ opcode = .decode char ∧
        opcode.isControl = false := by
  unfold instructionAt
  cases resolved? slots fills index with
  | none => simp
  | some char => simp [command_eq_ok]

theorem no_fault_of_ok (given : instructionAt 0 slots fills index = .ok opcode) :
    ∀ error, ¬Fault slots fills index error := by
  intro error fault
  rw [(fault_iff fault.lt).mp fault] at given
  cases given

theorem Fault.unique {other : FillError} (fault : Fault slots fills index error)
    (again : Fault slots fills index other) : error = other := by
  have first := (fault_iff fault.lt).mp fault
  rw [(fault_iff again.lt).mp again] at first
  exact (Except.error.inj first).symm

def FirstFault (slots : List Slot) (fills : List Char) (index : Nat) (error : FillError) : Prop :=
  Fault slots fills index error ∧ ∀ earlier < index, ∀ other, ¬Fault slots fills earlier other

theorem FirstFault.unique {later : Nat} {other : FillError}
    (first : FirstFault slots fills index error) (again : FirstFault slots fills later other) :
    error = other := by
  rcases Nat.lt_trichotomy index later with sooner | rfl | after
  · exact absurd first.1 (again.2 index sooner error)
  · exact first.1.unique again.1
  · exact absurd again.1 (first.2 later after other)

theorem no_fault_iff :
    (∀ index error, ¬Fault slots fills index error) ↔
      (∀ index slot, slots[index]? = some slot → slot.isPlaceholder = true →
        rank slots index < fills.length) ∧
      ∀ index char, resolved? slots fills index = some char →
        (Opcode.decode char).isControl = false := by
  constructor
  · intro clear
    constructor
    · intro index slot present vacant
      by_contra few
      exact clear index _ (.missing present vacant (Nat.le_of_not_lt few))
    · intro index char holds
      by_contra steers
      exact clear index _ (.unsupported holds (by simpa using steers))
  · rintro ⟨enough, harmless⟩ index error fault
    cases fault with
    | missing present vacant few => exact Nat.not_lt.mpr few (enough index _ present vacant)
    | unsupported holds steers =>
      rw [harmless index _ holds] at steers
      cases steers

end Slot

namespace Scaffold
variable {scaffold : Scaffold} {fills : List Char}

theorem commands_cases (scaffold : Scaffold) (fills : List Char) :
    (∃ commands, scaffold.commands fills = .ok commands ∧
      commands.length = scaffold.slots.length ∧
      (∀ index < scaffold.slots.length, ∃ char,
        Slot.resolved? scaffold.slots fills index = some char ∧
          commands[index]? = some (.decode char)) ∧
      ∀ index error, ¬Slot.Fault scaffold.slots fills index error) ∨
    ∃ index error, scaffold.commands fills = .error error ∧
      Slot.FirstFault scaffold.slots fills index error := by
  rcases Slot.commandsFrom_cases 0 scaffold.slots fills with
    ⟨commands, accepted, sized, each⟩ | ⟨index, inside, error, refused, here, before⟩
  · refine .inl ⟨commands, accepted, sized, ?_, ?_⟩
    · intro index inside
      obtain ⟨opcode, given, listed⟩ := each index inside
      obtain ⟨char, holds, rfl, _⟩ := Slot.instructionAt_eq_ok.mp given
      exact ⟨char, holds, listed⟩
    · intro index error fault
      obtain ⟨opcode, given, _⟩ := each index fault.lt
      exact Slot.no_fault_of_ok given error fault
  · refine .inr ⟨index, error, refused, (Slot.fault_iff inside).mpr here, ?_⟩
    intro earlier sooner
    obtain ⟨opcode, given⟩ := before earlier sooner
    exact Slot.no_fault_of_ok given

theorem commands_eq_error {error : FillError} :
    scaffold.commands fills = .error error ↔
      ∃ index, Slot.FirstFault scaffold.slots fills index error := by
  rcases commands_cases scaffold fills with
    ⟨commands, accepted, _, _, clear⟩ | ⟨first, reported, refused, fault⟩
  · rw [accepted]
    constructor
    · intro refused
      cases refused
    · rintro ⟨index, fault, _⟩
      exact absurd fault (clear index error)
  · rw [refused]
    constructor
    · rintro ⟨⟩
      exact ⟨first, fault⟩
    · rintro ⟨index, other⟩
      rw [fault.unique other]

-- Every slot gets the instruction that it holds, and all of them do exactly if the fills reach every
-- placeholder by its rank and no slot holds a character that steers pointers. Otherwise the first
-- slot without an instruction is reported.
theorem commands_exact (scaffold : Scaffold) (fills : List Char) :
    ((∃ commands, scaffold.commands fills = .ok commands) ↔
      (∀ index slot, scaffold.slots[index]? = some slot → slot.isPlaceholder = true →
        Slot.rank scaffold.slots index < fills.length) ∧
      ∀ index char, Slot.resolved? scaffold.slots fills index = some char →
        (Opcode.decode char).isControl = false) ∧
    (∀ commands, scaffold.commands fills = .ok commands →
      commands.length = scaffold.slots.length ∧
      ∀ index < scaffold.slots.length, ∃ char,
        Slot.resolved? scaffold.slots fills index = some char ∧
          commands[index]? = some (.decode char)) ∧
    ∀ error, scaffold.commands fills = .error error ↔
      ∃ index, Slot.FirstFault scaffold.slots fills index error := by
  refine ⟨?_, ?_, fun error => commands_eq_error⟩
  · rw [← Slot.no_fault_iff]
    rcases commands_cases scaffold fills with
      ⟨commands, accepted, _, _, clear⟩ | ⟨index, error, refused, fault, _⟩
    · exact ⟨fun _ => clear, fun _ => ⟨commands, accepted⟩⟩
    · constructor
      · rintro ⟨commands, accepted⟩
        cases accepted.symm.trans refused
      · intro clear
        exact absurd fault (clear index error)
  · intro commands accepted
    rcases commands_cases scaffold fills with
      ⟨others, same, sized, each, _⟩ | ⟨_, _, refused, _⟩
    · cases accepted.symm.trans same
      exact ⟨sized, each⟩
    · cases accepted.symm.trans refused

-- A slot with its own character stands between two placeholders, so the second of them takes the
-- second fill. Without that fill it is reported before the slot behind it, which steers pointers.
theorem commands_exact_interleaved :
    let slots : List Slot := [⟨⟨0, 0⟩, '?'⟩, ⟨⟨1, 0⟩, ';'⟩, ⟨⟨2, 0⟩, '?'⟩]
    let between : Scaffold := {nodes := [.exit], slots}
    let steered : Scaffold := {nodes := [.exit], slots := slots ++ [⟨⟨3, 0⟩, ']'⟩]}
    between.commands [')', '!'] = .ok [.increment, .writeByte, .writeInteger] ∧
      Slot.rank slots 2 = 1 ∧
      (∃ char, Slot.resolved? slots [')', '!'] 2 = some char ∧
        some Opcode.writeInteger = some (.decode char)) ∧
      (∃ index, Slot.FirstFault slots [')', '/'] index (.unsupported 2 '/')) ∧
      ∃ index, Slot.FirstFault steered.slots [')'] index (.missing 2) := by
  intro slots between steered
  have accepted : between.commands [')', '!'] = .ok [.increment, .writeByte, .writeInteger] := rfl
  obtain ⟨_, given, _⟩ := commands_exact between [')', '!']
  obtain ⟨_, _, forbidden⟩ := commands_exact between [')', '/']
  obtain ⟨_, _, short⟩ := commands_exact steered [')']
  exact ⟨accepted, rfl, (given _ accepted).2 2 (by decide), (forbidden _).mp rfl, (short _).mp rfl⟩

end Scaffold
end Hexagony
