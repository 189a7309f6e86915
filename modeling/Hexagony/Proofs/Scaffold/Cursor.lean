import Hexagony.Proofs.Grid.Wrap
import Hexagony.Scaffold.Survey

namespace Hexagony

-- Instructions whose effect on the pointer is worked out while the control flow is surveyed. All
-- others are left open as commands.
def Opcode.isTraced : Opcode → Bool
  | nop | terminate | skip | mirror _ => true
  | _ => false

def Move.ways : Move → List Cursor
  | .go next => [next]
  | .fork positive nonPositive => [positive, nonPositive]

def Deed.ways : Deed → List Cursor
  | .pass move | .command move => move.ways
  | .exit => []

namespace Cursor
variable {grid : Grid} {cursor : Cursor}

def Inside (grid : Grid) (cursor : Cursor) : Prop := grid.contains cursor.point = true

theorem start_inside (grid : Grid) : (start grid).Inside grid := by
  have positive := grid.size_pos
  refine Shape.contains_iff.mpr ?_
  simp only [start, InstructionPointer.corners]
  change (0 : Int).natAbs < grid.size ∧ (-(((max grid.size 1 : Nat) : Int) - 1)).natAbs < grid.size ∧
    (0 + -(((max grid.size 1 : Nat) : Int) - 1)).natAbs < grid.size
  omega

theorem settle_inside {point : Point} (inside : grid.contains point = true) (heading : Direction)
    (isPositive : Bool) : (settle grid point heading isPositive).Inside grid :=
  Grid.step_inside inside heading isPositive

theorem advance_inside {point : Point} (inside : grid.contains point = true) (heading : Direction)
    (sign : Sign) (skipping : Bool) :
    ∀ next ∈ (advance grid point heading sign skipping).ways, next.Inside grid := by
  have lands := Grid.step_inside inside heading
  unfold advance
  cases stepped : grid.step point heading with
  | fixed landing =>
    rw [stepped] at lands
    intro next member
    rw [List.mem_singleton.mp member]
    exact lands true
  | corner positive nonPositive =>
    rw [stepped] at lands
    cases known : sign.known? with
    | some isPositive =>
      intro next member
      rw [List.mem_singleton.mp member]
      exact lands isPositive
    | none =>
      intro next member
      rcases List.mem_pair.mp member with rfl | rfl
      · exact lands true
      · exact lands false

theorem reflect_inside (inside : cursor.Inside grid) (mirror : Mirror) :
    ∀ next ∈ (cursor.reflect grid mirror).ways, next.Inside grid := by
  unfold reflect
  dsimp only
  split
  · exact advance_inside inside _ _ _
  · split
    · exact advance_inside inside _ _ _
    · exact advance_inside inside _ _ _
    · intro next member
      rcases List.mem_pair.mp member with rfl | rfl
      · exact settle_inside inside _ _
      · exact settle_inside inside _ _

theorem deed_inside (inside : cursor.Inside grid) :
    ∀ next ∈ (cursor.deed grid).ways, next.Inside grid := by
  unfold deed
  split
  · exact advance_inside inside _ _ _
  · split
    · exact advance_inside inside _ _ _
    · intro next member
      cases member
    · exact advance_inside inside _ _ _
    · exact reflect_inside inside _
    · exact advance_inside inside _ _ _

theorem deed_command {move : Move} (done : cursor.deed grid = .command move) :
    cursor.skipping = false ∧ (Opcode.decode (grid.get cursor.point)).isTraced = false ∧
      move = advance grid cursor.point cursor.heading .unknown false := by
  unfold deed at done
  split at done
  · cases done
  · rename_i awake
    split at done <;> cases done
    refine ⟨by simpa using awake, ?_, rfl⟩
    cases found : Opcode.decode (grid.get cursor.point) <;> simp_all [Opcode.isTraced]

def code (grid : Grid) (cursor : Cursor) : Nat :=
  36 * (grid.indexOf? cursor.point).getD 0 + 6 * cursor.heading.index + 2 * cursor.sign.rank +
    cursor.skipping.toNat

theorem code_bounds (cursor : Cursor) :
    cursor.heading.index < 6 ∧ cursor.sign.rank < 3 ∧ cursor.skipping.toNat < 2 := by
  refine ⟨?_, ?_, Bool.toNat_lt _⟩
  · cases cursor.heading <;> decide
  · cases cursor.sign <;> decide

theorem code_lt (inside : cursor.Inside grid) : cursor.code grid < Survey.cursorBound grid := by
  obtain ⟨index, found⟩ := Grid.indexOf?_isSome inside
  have bound := Grid.indexOf?_lt found
  rw [grid.size_cells] at bound
  obtain ⟨heading, sign, skipping⟩ := code_bounds cursor
  unfold code Survey.cursorBound
  rw [found, Option.getD_some]
  omega

theorem code_injective {other : Cursor} (inside : cursor.Inside grid) (within : other.Inside grid)
    (same : cursor.code grid = other.code grid) : cursor = other := by
  obtain ⟨index, found⟩ := Grid.indexOf?_isSome inside
  obtain ⟨otherIndex, otherFound⟩ := Grid.indexOf?_isSome within
  have bounds := code_bounds cursor
  have otherBounds := code_bounds other
  simp only [code, found, otherFound, Option.getD_some] at same
  have sameIndex : index = otherIndex := by omega
  have sameHeading : cursor.heading = other.heading := Direction.index_injective (by omega)
  have sameSign : cursor.sign = other.sign := Sign.rank_injective (by omega)
  have sameSkipping : cursor.skipping = other.skipping := by
    have sameBit : cursor.skipping.toNat = other.skipping.toNat := by omega
    cases left : cursor.skipping <;> cases right : other.skipping <;> simp_all
  rw [← sameIndex] at otherFound
  have samePoint := Grid.indexOf?_injective found otherFound
  obtain ⟨point, heading, sign, skipping⟩ := cursor
  simp_all

end Cursor

namespace Survey

theorem size_le_cursorBound {grid : Grid} {placed : Places}
    (inside : ∀ cursor ∈ placed, cursor.Inside grid) : placed.size ≤ cursorBound grid := by
  have within : ∀ cursor ∈ placed.keys, cursor.Inside grid := by
    intro cursor member
    exact inside cursor (Std.ExtTreeMap.mem_keys.mp member)
  have different : (placed.keys.map (Cursor.code grid)).Nodup := by
    refine Std.ExtTreeMap.nodup_keys.map_on ?_
    intro cursor member other otherMember same
    exact Cursor.code_injective (within cursor member) (within other otherMember) same
  have bounded : placed.keys.map (Cursor.code grid) ⊆ List.range (cursorBound grid) := by
    intro number member
    obtain ⟨cursor, held, rfl⟩ := List.mem_map.mp member
    exact List.mem_range.mpr (Cursor.code_lt (within cursor held))
  have count := (different.subperm bounded).length_le
  rw [List.length_map, List.length_range, Std.ExtTreeMap.length_keys] at count
  exact count

end Survey
end Hexagony
