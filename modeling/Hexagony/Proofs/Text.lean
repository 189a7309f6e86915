import Std.Data.String.ToInt
import Hexagony.Text

namespace Hexagony

def textBytes (text : String) : List UInt8 := text.toUTF8.data.toList

theorem textBytes_eq (text : String) :
    textBytes text = text.toList.flatMap String.utf8EncodeChar := by
  rw [textBytes, String.toUTF8, ← String.utf8Encode_toList, List.utf8Encode,
    List.toList_data_toByteArray]

theorem textBytes_ofList (chars : List Char) :
    textBytes (String.ofList chars) = chars.flatMap String.utf8EncodeChar := by
  rw [textBytes_eq, String.toList_ofList]

theorem textBytes_append (first second : String) :
    textBytes (first ++ second) = textBytes first ++ textBytes second := by
  rw [textBytes_eq, textBytes_eq, textBytes_eq, String.toList_append, List.flatMap_append]

theorem utf8EncodeChar_of_lt {char : Char} (small : char.toNat < 128) :
    String.utf8EncodeChar char = [UInt8.ofNat char.toNat] :=
  if_pos (Nat.le_of_lt_succ small)

namespace Text
variable {char : Char} {width : Nat} {value other : Int}

theorem mem_number (member : char ∈ (toString value).toList) :
    char = '-' ∨ char.isDigit = true := by
  have digits {number : Nat} (digit : char ∈ number.repr.toList) : char.isDigit = true := by
    rw [Nat.toList_repr] at digit
    exact Nat.isDigit_of_mem_toDigits (by decide) (by decide) digit
  cases value with
  | ofNat number => exact .inr (digits member)
  | negSucc number =>
    have text : toString (Int.negSucc number) = "-" ++ (number + 1).repr := rfl
    rw [text, String.toList_append, List.mem_append] at member
    exact member.imp (fun sign => List.mem_singleton.mp sign) digits

theorem number_ne_nil (value : Int) : (toString value).toList ≠ [] := by
  intro blank
  have empty : Int.repr value = "" := String.toList_eq_nil_iff.mp blank
  rw [Int.repr_eq_if] at empty
  split at empty
  · exact Nat.repr_ne_empty empty
  · simp at empty

theorem toList_column (width : Nat) (value : Int) :
    (column width value).toList =
      List.replicate (width - (toString value).length) ' ' ++ (toString value).toList := by
  simp [column, padLeft, blanks]

theorem not_mem_column (blank : char ≠ ' ') (sign : char ≠ '-') (digit : char.isDigit = false) :
    char ∉ (column width value).toList := by
  rw [toList_column, List.mem_append]
  rintro (padding | number)
  · exact blank (List.eq_of_mem_replicate padding)
  · rw [(mem_number number).resolve_left sign] at digit
    cases digit

theorem filter_column (width : Nat) (value : Int) :
    (column width value).toList.filter (· ≠ ' ') = (toString value).toList := by
  have kept : ∀ char ∈ (toString value).toList, decide (char ≠ ' ') = true := by
    intro char member
    rw [decide_eq_true_iff]
    rintro rfl
    exact absurd (mem_number member) (by decide)
  rw [toList_column, List.filter_append, List.filter_eq_self.mpr kept]
  simp

theorem column_injective (same : (column width value).toList = (column width other).toList) :
    value = other := by
  have numbers := congrArg (List.filter (· ≠ ' ')) same
  rw [filter_column, filter_column] at numbers
  exact Int.repr_injective (String.toList_injective numbers)

theorem eq_of_separated {first second rest tail : List Char} (clean : char ∉ first)
    (bare : char ∉ second) (same : first ++ char :: rest = second ++ char :: tail) :
    first = second ∧ rest = tail := by
  induction first generalizing second with
  | nil =>
    cases second with
    | nil => exact ⟨rfl, (List.cons.inj same).2⟩
    | cons head second => exact absurd (List.cons.inj same).1 (List.ne_of_not_mem_cons bare)
  | cons head first ih =>
    cases second with
    | nil => exact absurd (List.cons.inj same).1.symm (List.ne_of_not_mem_cons clean)
    | cons start second =>
      obtain ⟨rfl, after⟩ := List.cons.inj same
      obtain ⟨rfl, rfl⟩ := ih (List.not_mem_of_not_mem_cons clean)
        (List.not_mem_of_not_mem_cons bare) after
      exact ⟨rfl, rfl⟩

end Text
end Hexagony
