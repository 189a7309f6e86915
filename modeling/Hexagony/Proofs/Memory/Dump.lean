import Mathlib.Data.Int.Order.Basic
import Mathlib.Data.List.Sort
import Mathlib.Data.Prod.Lex
import Hexagony.Memory.Basic
import Hexagony.Proofs.Memory.Lattice
import Hexagony.Proofs.Text

namespace Hexagony

namespace Direction

theorem length_label (direction : Direction) : direction.label.toList.length = 2 := by
  cases direction <;> rfl

theorem label_injective {first second : Direction} :
    first.label.toList = second.label.toList → first = second := by
  cases first <;> cases second <;> decide

end Direction

structure Place where
  hexagon : Point
  direction : Direction
  deriving DecidableEq

namespace Place
variable {place other : Place}

-- What entries are sorted by. Directions that go equally far down have it in common: east and west,
-- the two in the north and the two in the south.
def key (place : Place) : ℤ ×ₗ ℤ ×ₗ ℤ :=
  toLex (place.hexagon.q, toLex (place.hexagon.r, -place.direction.vector.r))

theorem key_lt_iff :
    place.key < other.key ↔ place.hexagon.q < other.hexagon.q ∨
      place.hexagon.q = other.hexagon.q ∧ (place.hexagon.r < other.hexagon.r ∨
        place.hexagon.r = other.hexagon.r ∧
          -place.direction.vector.r < -other.direction.vector.r) := by
  rw [key, key, Prod.Lex.toLex_lt_toLex, Prod.Lex.toLex_lt_toLex]

def name (place : Place) : String := place.hexagon.text ++ " " ++ place.direction.label

theorem toList_name (place : Place) :
    place.name.toList = "(Q: ".toList ++ ((Text.column 3 place.hexagon.q).toList ++ ',' ::
      (" R: ".toList ++ ((Text.column 3 place.hexagon.r).toList ++ ')' ::
        ' ' :: place.direction.label.toList))) := by
  simp [name, Point.text]

theorem name_injective {rest tail : List Char}
    (same : place.name.toList ++ rest = other.name.toList ++ tail) : place = other := by
  have comma {value : Int} : ',' ∉ (Text.column 3 value).toList :=
    Text.not_mem_column (by decide) (by decide) (by decide)
  have bracket {value : Int} : ')' ∉ (Text.column 3 value).toList :=
    Text.not_mem_column (by decide) (by decide) (by decide)
  simp only [toList_name, List.append_assoc, List.cons_append] at same
  obtain ⟨columns, behind⟩ := Text.eq_of_separated comma comma (List.append_cancel_left same)
  obtain ⟨rows, labels⟩ := Text.eq_of_separated bracket bracket (List.append_cancel_left behind)
  have directions : place.direction = other.direction :=
    Direction.label_injective (List.append_inj_left (List.cons.inj labels).2
      ((Direction.length_label _).trans (Direction.length_label _).symm))
  obtain ⟨hexagon, direction⟩ := place
  obtain ⟨otherHexagon, otherDirection⟩ := other
  have hexagons : hexagon = otherHexagon :=
    Point.ext (Text.column_injective columns) (Text.column_injective rows)
  cases hexagons
  cases directions
  rfl

end Place

namespace Edge
variable {edge other : Edge}

def place (edge : Edge) : Place := ⟨edge.hexagon, edge.side.direction⟩

theorem key_injective (same : edge.place.key = other.place.key) : edge = other := by
  have columns : edge.hexagon.q = other.hexagon.q := congrArg (fun key => (ofLex key).1) same
  have rows : edge.hexagon.r = other.hexagon.r :=
    congrArg (fun key => (ofLex (ofLex key).2).1) same
  have heights : edge.side.height = other.side.height :=
    congrArg (fun key => (ofLex (ofLex key).2).2) same
  obtain ⟨hexagon, side⟩ := edge
  obtain ⟨otherHexagon, otherSide⟩ := other
  cases Point.ext columns rows
  cases Side.height_injective heights
  rfl

theorem place_inj : edge.place = other.place ↔ edge = other :=
  ⟨fun same => key_injective (congrArg Place.key same), congrArg place⟩

theorem order_eq_lt_iff : order edge other = .lt ↔ edge.place.key < other.place.key := by
  rw [Place.key_lt_iff, order]
  simp only [compareLex, compareOn, Ordering.then_eq_lt, Std.compare_eq_lt,
    Std.LawfulEqCmp.compare_eq_iff_eq]
  rfl

end Edge

namespace Memory

abbrev Entry := Place × Int64

def place (memory : Memory) : Place := memory.pointer.edge.place

-- The memories that come from a new one, each with the words set on the way, the latest first.
inductive Reached : Memory → List Entry → Prop where
  | fresh : Reached {} []
  | set {memory : Memory} {writes : List Entry} (reached : Reached memory writes) (value : Int64) :
      Reached (memory.set value) ((memory.place, value) :: writes)
  | move {memory : Memory} {writes : List Entry} (reached : Reached memory writes)
      (way : MemoryPointer.Move) : Reached (memory.move way) writes

theorem mem_of_lookup {writes : List Entry} {place : Place} {value : Int64}
    (found : writes.lookup place = some value) : (place, value) ∈ writes := by
  obtain ⟨later, earlier, rfl, _⟩ := List.lookup_eq_some_iff.mp found
  exact List.mem_append_right later List.mem_cons_self

theorem lookup_of_mem {writes : List Entry} {entry : Entry} (written : entry ∈ writes) :
    ∃ value, writes.lookup entry.1 = some value := by
  cases found : writes.lookup entry.1 with
  | some value => exact ⟨value, rfl⟩
  | none => simpa using List.lookup_eq_none_iff.mp found entry written

namespace Reached
variable {memory : Memory} {writes : List Entry} {first second : Entry}

theorem word (reached : Reached memory writes) (edge : Edge) :
    writes.lookup edge.place = memory.edges[edge]? := by
  induction reached with
  | fresh => rfl
  | @set memory writes _ value ih =>
    rw [List.lookup_cons, ih, Memory.set, Std.ExtTreeMap.getElem?_insert]
    by_cases current : memory.pointer.edge = edge
    · simp [current, place, Std.ReflCmp.compare_self]
    · have elsewhere : edge.place ≠ memory.place := fun same =>
        current (Edge.place_inj.mp same).symm
      rw [beq_false_of_ne elsewhere]
      simp [current]
  | move _ way ih =>
    rw [ih]
    cases way <;> rfl

theorem edge (reached : Reached memory writes) (written : first ∈ writes) :
    ∃ edge : Edge, edge.place = first.1 := by
  induction reached with
  | fresh => cases written
  | @set memory writes _ value ih =>
    cases written with
    | head => exact ⟨memory.pointer.edge, rfl⟩
    | tail _ earlier => exact ih earlier
  | move _ _ ih => exact ih written

theorem key_injective (reached : Reached memory writes) (written : first ∈ writes)
    (other : second ∈ writes) (same : first.1.key = second.1.key) : first.1 = second.1 := by
  obtain ⟨edge, here⟩ := reached.edge written
  obtain ⟨otherEdge, there⟩ := reached.edge other
  rw [← here, ← there] at same ⊢
  rw [Edge.key_injective same]

end Reached

-- The entries of a memory in the order in which a table happens to hand them out: each written
-- place one time, with the word set last.
structure Lists (writes listing : List Entry) : Prop where
  once : (listing.map Prod.fst).Nodup
  latest : ∀ entry ∈ listing, writes.lookup entry.1 = some entry.2
  whole : ∀ entry ∈ writes, entry.1 ∈ listing.map Prod.fst

namespace Lists
variable {writes listing other : List Entry}

theorem mem_iff (lists : Lists writes listing) {place : Place} {value : Int64} :
    (place, value) ∈ listing ↔ writes.lookup place = some value := by
  constructor
  · exact lists.latest (place, value)
  · intro found
    have written : (place, value) ∈ writes := mem_of_lookup found
    obtain ⟨⟨_, word⟩, listed, rfl⟩ := List.mem_map.mp (lists.whole _ written)
    have held := lists.latest _ listed
    rw [found] at held
    cases held
    exact listed

theorem nodup (lists : Lists writes listing) : listing.Nodup := lists.once.of_map

theorem perm (lists : Lists writes listing) (others : Lists writes other) :
    listing.Perm other := by
  rw [List.perm_ext_iff_of_nodup lists.nodup others.nodup]
  rintro ⟨place, value⟩
  rw [lists.mem_iff, others.mem_iff]

theorem of_perm (lists : Lists writes listing) (same : other.Perm listing) :
    Lists writes other := by
  refine ⟨?_, ?_, ?_⟩
  · exact (same.map Prod.fst).nodup_iff.mpr lists.once
  · intro entry listed
    exact lists.latest entry (same.mem_iff.mp listed)
  · intro entry written
    exact (same.map Prod.fst).mem_iff.mpr (lists.whole entry written)

theorem filter_place (lists : Lists writes listing) (place : Place) :
    listing.filter (fun entry => entry.1 = place) =
      (writes.lookup place).toList.map fun value => (place, value) := by
  have members (found : Place) (value : Int64) :
      (found, value) ∈ listing.filter (fun entry => entry.1 = place) ↔
        found = place ∧ writes.lookup place = some value := by
    rw [List.mem_filter, lists.mem_iff, decide_eq_true_iff, and_comm]
    exact and_congr_right fun (same : found = place) => by rw [same]
  cases held : writes.lookup place with
  | none =>
    apply List.eq_nil_iff_forall_not_mem.mpr
    rintro ⟨found, value⟩ listed
    have here := ((members found value).mp listed).2
    rw [held] at here
    cases here
  | some value =>
    apply List.perm_singleton.mp
    rw [List.perm_ext_iff_of_nodup (lists.nodup.filter _) (List.nodup_singleton _)]
    rintro ⟨found, word⟩
    rw [members, held, Option.some_inj, List.mem_singleton, Prod.mk.injEq, eq_comm (a := value)]

end Lists

-- Entries in the order of their keys. Entries with one key stay as they are listed.
def arrange (listing : List Entry) : List Entry :=
  listing.mergeSort fun first second => first.1.key ≤ second.1.key

def entries (memory : Memory) : List Entry :=
  memory.edges.toList.map fun (edge, value) => (edge.place, value)

section Arranging
variable {memory : Memory} {writes listing : List Entry}

theorem arrange_perm (listing : List Entry) : (arrange listing).Perm listing :=
  List.mergeSort_perm listing _

theorem pairwise_arrange (listing : List Entry) :
    (arrange listing).Pairwise fun first second => first.1.key ≤ second.1.key := by
  have sorted : (arrange listing).Pairwise fun first second =>
      decide (first.1.key ≤ second.1.key) = true := by
    apply List.pairwise_mergeSort
    · intro first second third
      simp only [decide_eq_true_iff]
      exact le_trans
    · intro first second
      simp only [Bool.or_eq_true, decide_eq_true_iff]
      exact le_total _ _
  exact sorted.imp of_decide_eq_true

theorem pairwise_entries (memory : Memory) :
    memory.entries.Pairwise fun first second => first.1.key < second.1.key := by
  apply List.pairwise_map.mpr
  exact Std.ExtTreeMap.ordered_keys_toList.imp Edge.order_eq_lt_iff.mp

theorem Reached.lists_entries (reached : Reached memory writes) : Lists writes memory.entries := by
  refine ⟨?_, ?_, ?_⟩
  · apply List.pairwise_map.mpr
    refine memory.pairwise_entries.imp ?_
    intro first second rising same
    exact absurd rising (same ▸ lt_irrefl _)
  · intro entry listed
    obtain ⟨⟨edge, value⟩, held, rfl⟩ := List.mem_map.mp listed
    exact (reached.word edge).trans (Std.ExtTreeMap.mem_toList_iff_getElem?_eq_some.mp held)
  · intro entry written
    obtain ⟨edge, here⟩ := reached.edge written
    obtain ⟨value, found⟩ := lookup_of_mem written
    rw [← here, reached.word] at found
    have held := Std.ExtTreeMap.mem_toList_iff_getElem?_eq_some.mpr found
    have listed : (edge.place, value) ∈ memory.entries := List.mem_map.mpr ⟨_, held, rfl⟩
    exact List.mem_map.mpr ⟨_, listed, here⟩

-- Keys tell the entries apart, so there is one way to sort them.
theorem Reached.arrange_eq (reached : Reached memory writes) (lists : Lists writes listing) :
    arrange listing = memory.entries := by
  have arranged : Lists writes (arrange listing) := lists.of_perm (arrange_perm listing)
  have ordered : memory.entries.Pairwise fun first second => first.1.key ≤ second.1.key :=
    memory.pairwise_entries.imp le_of_lt
  refine List.Perm.eq_of_pairwise ?_ (pairwise_arrange listing) ordered
    (arranged.perm reached.lists_entries)
  rintro ⟨place, value⟩ ⟨other, word⟩ listed entered below above
  have found := arranged.mem_iff.mp listed
  have held := reached.lists_entries.mem_iff.mp entered
  have same : place = other := reached.key_injective (mem_of_lookup found) (mem_of_lookup held)
    (le_antisymm below above)
  cases same
  rw [found] at held
  cases held
  rfl

end Arranging

def line (active place : Place) (value : Int64) : String :=
  place.name ++ ": " ++ Text.column 6 value.toInt ++ (if place = active then " (active)" else "")

def lines (active : Place) (listing : List Entry) : List String :=
  (arrange listing).map fun (place, value) => line active place value

def dump (active : Place) (clockwise : Bool) (listing : List Entry) : String :=
  "\n".intercalate <|
    [heading] ++ lines active listing ++
      ["Pointer:", active.name, "Clockwise: " ++ toString clockwise]

section Lines
variable {memory : Memory} {writes listing : List Entry}

theorem startsWith_line (active place other : Place) (value : Int64) :
    (line active place value).startsWith other.name = decide (place = other) := by
  rw [Bool.eq_iff_iff, String.startsWith_string_iff, decide_eq_true_iff]
  rw [line, String.append_assoc, String.append_assoc, String.toList_append]
  constructor
  · rintro ⟨tail, same⟩
    exact (Place.name_injective same).symm
  · rintro rfl
    exact List.prefix_append _ _

theorem endsWith_line (active place : Place) (value : Int64) :
    (line active place value).endsWith " (active)" = decide (place = active) := by
  rw [Bool.eq_iff_iff, String.endsWith_eq_endsWith_toSlice, String.Slice.endsWith_string_iff,
    String.copy_toSlice, decide_eq_true_iff, line]
  by_cases current : place = active
  · rw [if_pos current, String.toList_append]
    exact iff_of_true (List.suffix_append _ _) current
  · refine iff_of_false ?_ current
    rw [if_neg current, String.append_empty, String.toList_append, Text.toList_column]
    rintro ⟨front, same⟩
    have last := congrArg List.getLast? same
    rw [← List.append_assoc, List.getLast?_append_of_ne_nil _ (Text.number_ne_nil _),
      List.getLast?_append_of_ne_nil _ (by decide)] at last
    have member : ')' ∈ (toString value.toInt).toList := List.mem_of_getLast? last.symm
    exact absurd (Text.mem_number member) (by decide)

theorem edgeLine_eq (active edge : Edge) (value : Int64) :
    edgeLine active edge value = line active.place edge.place value := by
  simp only [edgeLine, line, Edge.place_inj]
  rfl

theorem Reached.edgeLines_eq (reached : Reached memory writes) (lists : Lists writes listing) :
    memory.edgeLines = lines memory.place listing := by
  rw [lines, reached.arrange_eq lists, entries, List.map_map, edgeLines]
  apply List.map_congr_left
  rintro ⟨edge, value⟩ _
  exact edgeLine_eq _ _ _

theorem Reached.text_eq (reached : Reached memory writes) (lists : Lists writes listing) :
    memory.text = dump memory.place memory.pointer.clockwise listing := by
  rw [dump, ← reached.edgeLines_eq lists]
  rfl

theorem filter_lines (lists : Lists writes listing) (active place : Place) {test : String → Bool}
    (tells : ∀ other value, test (line active other value) = decide (other = place)) :
    (lines active listing).filter test =
      (writes.lookup place).toList.map fun value => line active place value := by
  have arranged : Lists writes (arrange listing) := lists.of_perm (arrange_perm listing)
  have tests : (test ∘ fun (other, value) => line active other value) =
      fun entry : Entry => decide (entry.1 = place) := funext fun entry => tells entry.1 entry.2
  rw [lines, List.filter_map, tests, arranged.filter_place, List.map_map]
  rfl

end Lines

-- On the way from a new memory no two places with one key are written. The entries can be listed,
-- and every listing, in whatever order, gives the text of the memory: the keys rise from line to
-- line, a written place has one line, with the word set last, any other place has none, and the
-- line that is marked is that of the place under the pointer, if it was written.
theorem dump_independent {memory : Memory} {writes : List Entry} (reached : Reached memory writes) :
    (∀ first ∈ writes, ∀ second ∈ writes, first.1.key = second.1.key → first.1 = second.1) ∧
      (∃ listing, Lists writes listing) ∧
      ∀ listing, Lists writes listing →
        memory.text = dump memory.place memory.pointer.clockwise listing ∧
        ((arrange listing).Pairwise fun first second => first.1.key < second.1.key) ∧
        (∀ place : Place, (lines memory.place listing).filter (·.startsWith place.name) =
          (writes.lookup place).toList.map (line memory.place place)) ∧
        (lines memory.place listing).filter (·.endsWith " (active)") =
          (writes.lookup memory.place).toList.map (line memory.place memory.place) := by
  refine ⟨?_, ⟨memory.entries, reached.lists_entries⟩, ?_⟩
  · intro first written second other
    exact reached.key_injective written other
  · intro listing lists
    refine ⟨reached.text_eq lists, ?_, ?_, ?_⟩
    · rw [reached.arrange_eq lists]
      exact memory.pairwise_entries
    · intro place
      exact filter_lines lists memory.place place fun other value =>
        startsWith_line memory.place other place value
    · exact filter_lines lists memory.place memory.place fun other value =>
        endsWith_line memory.place other value

-- The three edges of one hexagon, one of them written twice, listed in two orders.
theorem dump_independent_listed :
    let back := [MemoryPointer.Move.reverse, .right, .reverse]
    let both := ((({} : Memory).set 7).move .left).set (-12)
    let memory := ((back.foldl move both).set 3).move .reverse |>.move .right |>.set 5
    let southEast : Place := ⟨Point.origin, .southEast⟩
    let east : Place := ⟨Point.origin, .east⟩
    let northEast : Place := ⟨Point.origin, .northEast⟩
    let writes : List Entry := [(southEast, 5), (east, 3), (northEast, -12), (east, 7)]
    let listing : List Entry := [(east, 3), (southEast, 5), (northEast, -12)]
    Reached memory writes ∧ Lists writes listing ∧ Lists writes listing.reverse ∧
      dump memory.place memory.pointer.clockwise listing = memory.text ∧
      dump memory.place memory.pointer.clockwise listing.reverse = memory.text ∧
      (lines memory.place listing).filter (·.startsWith east.name) = [line southEast east 3] ∧
      (lines memory.place listing).filter (·.endsWith " (active)") =
        [line southEast southEast 5] := by
  intro back both memory southEast east northEast writes listing
  have reached : Reached memory writes :=
    (((((((((Reached.fresh.set 7).move .left).set (-12)).move .reverse).move .right).move
      .reverse).set 3).move .reverse).move .right).set 5
  have lists : Lists writes listing := ⟨by decide, by decide, by decide⟩
  have reversed : Lists writes listing.reverse := ⟨by decide, by decide, by decide⟩
  obtain ⟨_, _, shown⟩ := dump_independent reached
  obtain ⟨text, _, named, marked⟩ := shown listing lists
  exact ⟨reached, lists, reversed, text.symm, (shown _ reversed).1.symm, named east, marked⟩

end Memory
end Hexagony
