import Mathlib.Tactic.Common
import Hexagony.Scaffold.Basic

namespace Hexagony

def Location.next (location : Location) : Location :=
  {location with offset := location.offset + 1}

inductive Act (ι : Type) where
  | command (slot : Nat) (next : ι)
  | ending (ending : Ending ι)
  deriving DecidableEq

namespace Segment
variable {κ τ κ' τ' : Type}

def HasCommand (segments : List (Segment κ τ)) (location : Location) (name : κ) : Prop :=
  ∃ segment, segments[location.segment]? = some segment ∧
    segment.commands[location.offset]? = some name

def HasEnding (segments : List (Segment κ τ)) (location : Location) (ending : Ending τ) : Prop :=
  ∃ segment, segments[location.segment]? = some segment ∧
    location.offset = segment.commands.length ∧ segment.ending = ending

def rename (command : κ → κ') (target : τ → τ') (segment : Segment κ τ) : Segment κ' τ' where
  commands := segment.commands.map command
  ending := segment.ending.map target

theorem HasCommand.rename {segments : List (Segment κ τ)} {location : Location} {name : κ}
    (has : HasCommand segments location name) (command : κ → κ') (target : τ → τ') :
    HasCommand (segments.map (Segment.rename command target)) location (command name) := by
  obtain ⟨segment, found, named⟩ := has
  refine ⟨segment.rename command target, ?_, ?_⟩
  · rw [List.getElem?_map, found]
    rfl
  · rw [Segment.rename, List.getElem?_map, named]
    rfl

theorem HasEnding.rename {segments : List (Segment κ τ)} {location : Location} {ending : Ending τ}
    (has : HasEnding segments location ending) (command : κ → κ') (target : τ → τ') :
    HasEnding (segments.map (Segment.rename command target)) location (ending.map target) := by
  obtain ⟨segment, found, last, rfl⟩ := has
  refine ⟨segment.rename command target, ?_, ?_, rfl⟩
  · rw [List.getElem?_map, found]
    rfl
  · rw [last, Segment.rename, List.length_map]

def act? (segments : List (Segment Nat Location)) (location : Location) :
    Option (Act Location) :=
  segments[location.segment]?.bind fun segment =>
    if location.offset = segment.commands.length then some (.ending segment.ending)
    else segment.commands[location.offset]?.map (.command · location.next)

variable {segments : List (Segment Nat Location)} {location : Location}

theorem act?_of_command {slot : Nat} (has : HasCommand segments location slot) :
    act? segments location = some (.command slot location.next) := by
  obtain ⟨segment, found, named⟩ := has
  have before := (List.getElem?_eq_some_iff.mp named).1
  have inner : location.offset ≠ segment.commands.length := by omega
  simp [act?, found, named, inner]

theorem act?_of_ending {ending : Ending Location} (has : HasEnding segments location ending) :
    act? segments location = some (.ending ending) := by
  obtain ⟨segment, found, last, rfl⟩ := has
  simp [act?, found, last]

theorem command_of_act? {slot : Nat} {next : Location}
    (does : act? segments location = some (.command slot next)) :
    HasCommand segments location slot ∧ next = location.next := by
  obtain ⟨segment, found, rest⟩ := Option.bind_eq_some_iff.mp does
  split at rest
  · cases rest
  · obtain ⟨name, named, same⟩ := Option.map_eq_some_iff.mp rest
    cases same
    exact ⟨⟨segment, found, named⟩, rfl⟩

theorem ending_of_act? {ending : Ending Location}
    (does : act? segments location = some (.ending ending)) :
    HasEnding segments location ending := by
  obtain ⟨segment, found, rest⟩ := Option.bind_eq_some_iff.mp does
  split at rest
  · rename_i last
    cases rest
    exact ⟨segment, found, last, rfl⟩
  · obtain ⟨name, _, same⟩ := Option.map_eq_some_iff.mp rest
    cases same

end Segment
end Hexagony
