import Mathlib.Tactic.Common
import Hexagony.Escape
import Hexagony.Proofs.Text

namespace Hexagony.Escape

def letters : List (Char × Char) :=
  [('n', '\n'), ('t', '\t'), ('r', '\r'), ('0', '\x00'), ('\\', '\\'), ('\x22', '\x22'),
    ('\x27', '\x27')]

inductive Piece where
  | plain (char : Char) (other : char ≠ '\\')
  | escaped (letter value : Char) (listed : (letter, value) ∈ letters)

namespace Piece

def chars : Piece → List Char
  | plain char _ => [char]
  | escaped letter _ _ => ['\\', letter]

def value : Piece → Char
  | plain char _ => char
  | escaped _ value _ => value

end Piece

def Stray (after : List Char) : Prop :=
  ∀ letter ∈ after.head?, ∀ value, (letter, value) ∉ letters

def size (chars : List Char) : Nat := (textBytes (String.ofList chars)).length

theorem size_append (first second : List Char) :
    size (first ++ second) = size first + size second := by
  simp [size, textBytes_append]

theorem size_cons (char : Char) (chars : List Char) :
    size (char :: chars) = char.utf8Size + size chars := by
  simp only [size, textBytes_ofList, List.flatMap_cons, List.length_append,
    String.length_utf8EncodeChar]

section Decoding
variable {letter value : Char} {after rest : List Char}

theorem value?_eq_some : value? letter = some value ↔ (letter, value) ∈ letters := by
  unfold value?
  split <;> simp_all [letters, eq_comm]

theorem stray_nil : Stray [] := by simp [Stray]

theorem stray_cons : Stray (letter :: rest) ↔ value? letter = none := by
  simp only [Option.eq_none_iff_forall_ne_some, ne_eq, value?_eq_some]
  simp [Stray]

theorem decodeFrom_piece (offset : Nat) (piece : Piece) (rest : List Char) :
    decodeFrom offset (piece.chars ++ rest) =
      (decodeFrom (offset + size piece.chars) rest).map (piece.value :: ·) := by
  cases piece with
  | plain char other =>
    have place : size [char] = char.utf8Size := size_cons char []
    rw [Piece.chars, place, List.singleton_append, decodeFrom, if_neg other]
    · rfl
    · intro _ _ same
      exact absurd same other
  | escaped letter value listed =>
    have place : size ['\\', letter] = 1 + letter.utf8Size := by
      rw [size_cons, size_cons]
      rfl
    rw [Piece.chars, place, List.cons_append, List.singleton_append, decodeFrom,
      value?_eq_some.mpr listed, Nat.add_assoc]
    rfl

-- Whatever follows some pieces is decoded by itself, from the place where it stands.
theorem decodeFrom_pieces (offset : Nat) (pieces : List Piece) (rest : List Char) :
    decodeFrom offset (pieces.flatMap Piece.chars ++ rest) =
      (decodeFrom (offset + size (pieces.flatMap Piece.chars)) rest).map
        (pieces.map Piece.value ++ ·) := by
  induction pieces generalizing offset with
  | nil =>
    change decodeFrom offset rest = (decodeFrom offset rest).map id
    cases decodeFrom offset rest <;> rfl
  | cons piece pieces ih =>
    rw [List.flatMap_cons, List.append_assoc, decodeFrom_piece, ih, size_append, Nat.add_assoc]
    cases decodeFrom _ rest <;> rfl

theorem decodeFrom_stray (offset : Nat) (stray : Stray after) :
    decodeFrom offset ('\\' :: after) = .error ⟨offset, after.head?⟩ := by
  cases after with
  | nil => rfl
  | cons next rest =>
    rw [decodeFrom, stray_cons.mp stray]
    rfl

theorem exists_pieces : ∀ text : List Char, ∃ (pieces : List Piece) (rest : List Char),
    text = pieces.flatMap Piece.chars ++ rest ∧
      (rest = [] ∨ ∃ after, rest = '\\' :: after ∧ Stray after)
  | [] => ⟨[], [], rfl, .inl rfl⟩
  | char :: text => by
    by_cases same : char = '\\'
    · subst same
      cases text with
      | nil => exact ⟨[], _, rfl, .inr ⟨[], rfl, stray_nil⟩⟩
      | cons letter text =>
        -- The letter belongs to the backslash, also if it is one itself: backslashes in a row are
        -- paired from the left.
        cases known : value? letter with
        | none => exact ⟨[], _, rfl, .inr ⟨_, rfl, stray_cons.mpr known⟩⟩
        | some value =>
          obtain ⟨pieces, rest, whole, ends⟩ := exists_pieces text
          exact ⟨.escaped letter value (value?_eq_some.mp known) :: pieces, rest,
            congrArg ('\\' :: letter :: ·) whole, ends⟩
    · obtain ⟨pieces, rest, whole, ends⟩ := exists_pieces text
      exact ⟨.plain char same :: pieces, rest, congrArg (char :: ·) whole, ends⟩

theorem decode_pieces {text : String} {pieces : List Piece}
    (whole : text.toList = pieces.flatMap Piece.chars) :
    decode text = .ok (String.ofList (pieces.map Piece.value)) := by
  rw [decode, whole, ← List.append_nil (pieces.flatMap Piece.chars), decodeFrom_pieces]
  simp [decodeFrom, Except.map]

theorem decode_stray {text : String} {pieces : List Piece} (stray : Stray after)
    (whole : text.toList = pieces.flatMap Piece.chars ++ '\\' :: after) :
    decode text = .error ⟨size (pieces.flatMap Piece.chars), after.head?⟩ := by
  rw [decode, whole, decodeFrom_pieces, decodeFrom_stray _ stray, Nat.zero_add]
  rfl

theorem decode_cases (text : String) :
    (∃ pieces : List Piece, text.toList = pieces.flatMap Piece.chars ∧
      decode text = .ok (String.ofList (pieces.map Piece.value))) ∨
    ∃ (pieces : List Piece) (after : List Char),
      text.toList = pieces.flatMap Piece.chars ++ '\\' :: after ∧ Stray after ∧
        decode text = .error ⟨size (pieces.flatMap Piece.chars), after.head?⟩ := by
  obtain ⟨pieces, rest, whole, rfl | ⟨after, rfl, stray⟩⟩ := exists_pieces text.toList
  · rw [List.append_nil] at whole
    exact .inl ⟨pieces, whole, decode_pieces whole⟩
  · exact .inr ⟨pieces, after, whole, stray, decode_stray stray whole⟩

theorem decode_eq_ok {text value : String} :
    decode text = .ok value ↔ ∃ pieces : List Piece,
      text.toList = pieces.flatMap Piece.chars ∧ value.toList = pieces.map Piece.value := by
  constructor
  · intro decoded
    rcases decode_cases text with ⟨pieces, whole, decodes⟩ | ⟨_, _, _, _, fails⟩
    · cases decoded.symm.trans decodes
      exact ⟨pieces, whole, String.toList_ofList⟩
    · cases decoded.symm.trans fails
  · rintro ⟨pieces, whole, values⟩
    rw [decode_pieces whole, ← values, String.ofList_toList]

structure Marks (before after : List Char) (error : EscapeError) : Prop where
  offset : error.offset = (textBytes (String.ofList before)).length
  next : error.next = after.head?
  width : error.width = 1 ↔ after = []
  label : error.label = "dangling backslash" ↔ after = []
  wide : ∀ next ∈ after.head?, error.width = 1 + next.utf8Size

theorem unknown_ne_dangling (next : Char) :
    "unknown escape `\\" ++ String.singleton next ++ "`" ≠ "dangling backslash" := by
  intro same
  have first := congrArg (fun text => text.toList.head?) same
  simp at first

theorem marks (before after : List Char) : Marks before after ⟨size before, after.head?⟩ := by
  cases after with
  | nil => constructor <;> simp [size, EscapeError.width, EscapeError.label]
  | cons next rest =>
    have positive := next.utf8Size_pos
    refine ⟨rfl, rfl, ?_, ?_, ?_⟩
    · have wider : 1 + next.utf8Size ≠ 1 := by omega
      exact iff_of_false wider (List.cons_ne_nil _ _)
    · exact iff_of_false (unknown_ne_dangling next) (List.cons_ne_nil _ _)
    · rintro _ ⟨rfl⟩
      rfl

theorem decode_eq_error {text : String} {error : EscapeError} :
    decode text = .error error ↔ ∃ (pieces : List Piece) (after : List Char),
      text.toList = pieces.flatMap Piece.chars ++ '\\' :: after ∧ Stray after ∧
        Marks (pieces.flatMap Piece.chars) after error := by
  constructor
  · intro failed
    rcases decode_cases text with ⟨_, _, decodes⟩ | ⟨pieces, after, whole, stray, fails⟩
    · cases failed.symm.trans decodes
    · cases failed.symm.trans fails
      exact ⟨pieces, after, whole, stray, marks _ _⟩
  · rintro ⟨pieces, after, whole, stray, marked⟩
    rw [decode_stray stray whole]
    obtain ⟨offset, next⟩ := error
    obtain rfl : offset = _ := marked.offset
    obtain rfl : next = _ := marked.next
    rfl

end Decoding

-- A character as it may be written: a backslash twice, and anything else that has an escape either
-- as that or as it is.
def spelling (escaped : Bool) (char : Char) : List Char :=
  if char = '\\' then ['\\', '\\']
  else if escaped then
    match letters.find? fun entry => entry.2 = char with
    | some (letter, _) => ['\\', letter]
    | none => [char]
  else [char]

theorem exists_piece (escaped : Bool) (char : Char) :
    ∃ piece : Piece, piece.chars = spelling escaped char ∧ piece.value = char := by
  unfold spelling
  by_cases same : char = '\\'
  · subst same
    exact ⟨.escaped '\\' '\\' (by decide), rfl, rfl⟩
  · rw [if_neg same]
    split
    · split
      · rename_i letter value found
        have listed := List.mem_of_find?_eq_some found
        have stands : value = char := by simpa using List.find?_some found
        exact ⟨.escaped letter value listed, rfl, stands⟩
      · exact ⟨.plain char same, rfl, rfl⟩
    · exact ⟨.plain char same, rfl, rfl⟩

theorem exists_spelling (marked : List (Char × Bool)) :
    ∃ pieces : List Piece,
      pieces.flatMap Piece.chars = (marked.flatMap fun entry => spelling entry.2 entry.1) ∧
        pieces.map Piece.value = marked.map Prod.fst := by
  induction marked with
  | nil => exact ⟨[], rfl, rfl⟩
  | cons entry rest ih =>
    obtain ⟨pieces, chars, values⟩ := ih
    obtain ⟨piece, char, value⟩ := exists_piece entry.2 entry.1
    refine ⟨piece :: pieces, ?_, ?_⟩
    · rw [List.flatMap_cons, List.flatMap_cons, chars, char]
    · rw [List.map_cons, List.map_cons, values, value]

-- A text is decoded exactly if it is a sequence of characters other than the backslash and of
-- escapes, and to what these stand for. Otherwise the error points at the first backslash from the
-- left that starts no escape. A text in which every backslash is doubled, and whatever else has an
-- escape may be replaced by it, is decoded to the text it was.
theorem decode_exact :
    (∀ text value : String, decode text = .ok value ↔ ∃ pieces : List Piece,
      text.toList = pieces.flatMap Piece.chars ∧ value.toList = pieces.map Piece.value) ∧
    (∀ (text : String) (error : EscapeError),
      decode text = .error error ↔ ∃ (pieces : List Piece) (after : List Char),
        text.toList = pieces.flatMap Piece.chars ++ '\\' :: after ∧ Stray after ∧
          Marks (pieces.flatMap Piece.chars) after error) ∧
    ∀ marked : List (Char × Bool),
      decode (String.ofList (marked.flatMap fun entry => spelling entry.2 entry.1)) =
        .ok (String.ofList (marked.map Prod.fst)) := by
  refine ⟨fun _ _ => decode_eq_ok, fun _ _ => decode_eq_error, fun marked => ?_⟩
  obtain ⟨pieces, chars, values⟩ := exists_spelling marked
  apply decode_eq_ok.mpr
  exact ⟨pieces, by rw [String.toList_ofList, chars], by rw [String.toList_ofList, values]⟩

end Hexagony.Escape
