import Hexagony.Proofs.Machine.Input
import Hexagony.Proofs.Machine.Output
import Hexagony.Proofs.Text

namespace Hexagony

namespace Numeral

def figures (number : Nat) : List UInt8 :=
  (Nat.toDigits 10 number).map fun char => UInt8.ofNat char.toNat

section Figures
variable {number : Nat} {char : Char} {byte : UInt8}

theorem isDigit_iff : char.isDigit = true ↔ 48 ≤ char.toNat ∧ char.toNat ≤ 57 := by
  simp [Char.isDigit, UInt32.le_iff_toNat_le]

theorem digit_bounds (digit : char ∈ Nat.toDigits 10 number) :
    48 ≤ char.toNat ∧ char.toNat ≤ 57 :=
  isDigit_iff.mp (Nat.isDigit_of_mem_toDigits (by decide) (by decide) digit)

theorem toNat_figure (digit : char ∈ Nat.toDigits 10 number) :
    (UInt8.ofNat char.toNat).toNat = char.toNat := by
  have bounds := digit_bounds digit
  rw [UInt8.toNat_ofNat']
  omega

theorem figures_isFigure (member : byte ∈ figures number) : isFigure byte = true := by
  obtain ⟨char, digit, rfl⟩ := List.mem_map.mp member
  rw [isFigure_iff, toNat_figure digit]
  exact digit_bounds digit

theorem foldl_figures (number : Nat) :
    (figures number).foldl (fun number byte => 10 * number + (byte.toNat - 48)) 0 = number := by
  calc (figures number).foldl (fun number byte => 10 * number + (byte.toNat - 48)) 0
      = Nat.ofDigitChars 10 (Nat.toDigits 10 number) 0 := by
        rw [figures, List.foldl_map]
        apply List.foldl_ext
        intro total char digit
        rw [toNat_figure digit]
        rfl
    _ = number := Nat.ofDigitChars_ten_toDigits

theorem flatMap_toDigits (number : Nat) :
    (Nat.toDigits 10 number).flatMap String.utf8EncodeChar = figures number := by
  rw [figures, List.map_eq_flatMap]
  apply List.flatMap_congr
  intro char digit
  have bounds := digit_bounds digit
  exact utf8EncodeChar_of_lt (by omega)

end Figures

def printed (number : Int) : List UInt8 := textBytes (toString number)

section Printed
variable {front after : List UInt8}

theorem printed_ofNat (number : Nat) : printed (Int.ofNat number) = figures number := by
  have text : toString (Int.ofNat number) = Nat.repr number := rfl
  rw [printed, textBytes_eq, text, Nat.toList_repr, flatMap_toDigits]

theorem printed_negSucc (number : Nat) :
    printed (Int.negSucc number) = 45 :: figures (number + 1) := by
  have text : toString (Int.negSucc number) = "-" ++ Nat.repr (number + 1) := rfl
  rw [printed, textBytes_eq, text, String.toList_append, List.flatMap_append, Nat.toList_repr,
    flatMap_toDigits]
  rfl

theorem takeWhile_figures (ends : after.takeWhile isFigure = []) (number : Nat) :
    (figures number ++ after).takeWhile isFigure = figures number := by
  rw [List.takeWhile_append_of_pos (fun _ member => figures_isFigure member), ends,
    List.append_nil]

theorem dropWhile_figures (ends : after.takeWhile isFigure = []) (number : Nat) :
    (figures number ++ after).dropWhile isFigure = after := by
  have whole := List.takeWhile_append_dropWhile (p := isFigure) (l := figures number ++ after)
  rw [takeWhile_figures ends] at whole
  exact List.append_cancel_left whole

theorem ofBytes_figures (ends : after.takeWhile isFigure = []) (number : Nat) :
    ofBytes (figures number ++ after) =
      {noise := [], sign := [], digits := figures number, rest := after} := by
  have read := takeWhile_figures ends number
  have left := dropWhile_figures ends number
  cases digits : figures number with
  | nil => exact absurd (List.map_eq_nil_iff.mp digits) Nat.toDigits_ne_nil
  | cons byte rest =>
    have figure : isFigure byte = true := figures_isFigure (by rw [digits]; exact List.mem_cons_self)
    rw [digits, List.cons_append] at read left
    rw [List.cons_append, ofBytes_figure figure, read, left]

theorem ofBytes_printed (ends : after.takeWhile isFigure = []) (number : Int) :
    (ofBytes (printed number ++ after)).value = number ∧
      (ofBytes (printed number ++ after)).rest = after := by
  cases number with
  | ofNat number =>
    rw [printed_ofNat, ofBytes_figures ends]
    refine ⟨?_, rfl⟩
    rw [value, magnitude_eq_foldl, foldl_figures]
    rfl
  | negSucc number =>
    rw [printed_negSucc, List.cons_append, ofBytes_sign (by decide)]
    refine ⟨?_, dropWhile_figures ends _⟩
    rw [value, magnitude_eq_foldl, takeWhile_figures ends, foldl_figures]
    rfl

theorem ofBytes_front (noise : ∀ byte ∈ front, isNoise byte = true) (bytes : List UInt8) :
    (ofBytes (front ++ bytes)).value = (ofBytes bytes).value ∧
      (ofBytes (front ++ bytes)).rest = (ofBytes bytes).rest := by
  induction front with
  | nil => exact ⟨rfl, rfl⟩
  | cons byte front ih =>
    rw [List.cons_append, ofBytes_noise (noise byte List.mem_cons_self)]
    exact ih fun other member => noise other (List.mem_cons_of_mem _ member)

end Printed

def Separates (bytes : List UInt8) : Prop :=
  bytes ≠ [] ∧ ∀ byte ∈ bytes, isNoise byte = true

theorem Separates.ends {bytes : List UInt8} (separates : Separates bytes) (more : List UInt8) :
    (bytes ++ more).takeWhile isFigure = [] := by
  obtain ⟨some, noise⟩ := separates
  cases bytes with
  | nil => exact absurd rfl some
  | cons byte rest =>
    have other := (isNoise_iff.mp (noise byte List.mem_cons_self)).2
    rw [List.cons_append, List.takeWhile_cons_of_neg other]

theorem isNoise_of_toNat {byte : UInt8} (plus : byte.toNat ≠ 43) (minus : byte.toNat ≠ 45)
    (digit : ¬(48 ≤ byte.toNat ∧ byte.toNat ≤ 57)) : isNoise byte = true := by
  rw [isNoise_iff, isSign_iff, isFigure_iff]
  refine ⟨?_, digit⟩
  rintro (rfl | rfl)
  · exact plus rfl
  · exact minus rfl

theorem separates_byte {byte : UInt8} (noise : isNoise byte = true) : Separates [byte] :=
  ⟨List.cons_ne_nil _ _, fun other member => by rw [List.mem_singleton.mp member]; exact noise⟩

theorem separates_large {bytes : List UInt8} (some : bytes ≠ [])
    (large : ∀ byte ∈ bytes, 128 ≤ byte.toNat) : Separates bytes := by
  refine ⟨some, ?_⟩
  intro byte member
  have bound := large byte member
  exact isNoise_of_toNat (by omega) (by omega) (by omega)

theorem large_of_utf8EncodeChar {char : Char} (wide : 128 ≤ char.toNat) :
    ∀ byte ∈ String.utf8EncodeChar char, 128 ≤ byte.toNat := by
  intro byte member
  unfold String.utf8EncodeChar at member
  change 128 ≤ char.val.toNat at wide
  dsimp only at member
  split at member
  · omega
  · split at member
    · simp only [List.mem_cons, List.not_mem_nil, or_false] at member
      rcases member with rfl | rfl <;> rw [UInt8.toNat_ofNat'] <;> omega
    · split at member
      · simp only [List.mem_cons, List.not_mem_nil, or_false] at member
        rcases member with rfl | rfl | rfl <;> rw [UInt8.toNat_ofNat'] <;> omega
      · simp only [List.mem_cons, List.not_mem_nil, or_false] at member
        rcases member with rfl | rfl | rfl | rfl <;> rw [UInt8.toNat_ofNat'] <;> omega

theorem separates_char {char : Char} (plus : char ≠ '+') (minus : char ≠ '-')
    (digit : char.isDigit = false) : Separates (String.utf8EncodeChar char) := by
  rcases Nat.lt_or_ge char.toNat 128 with small | wide
  · rw [utf8EncodeChar_of_lt small]
    have code : (UInt8.ofNat char.toNat).toNat = char.toNat := by
      rw [UInt8.toNat_ofNat']
      omega
    apply separates_byte
    apply isNoise_of_toNat
    · rw [code]
      exact fun same => plus (Char.toNat_inj.mp same)
    · rw [code]
      exact fun same => minus (Char.toNat_inj.mp same)
    · rw [code]
      exact mt isDigit_iff.mpr (Bool.eq_false_iff.mp digit)
  · exact separates_large (by simp) (large_of_utf8EncodeChar wide)

end Numeral

namespace Input
open Numeral

theorem expect_printed {front after : List UInt8} (noise : ∀ byte ∈ front, isNoise byte = true)
    (ends : after.takeWhile isFigure = []) (value : Int64) :
    expect .integer (front ++ (printed value.toInt ++ after)) = (value, after) := by
  obtain ⟨skipped, left⟩ := ofBytes_front noise (printed value.toInt ++ after)
  obtain ⟨read, rest⟩ := ofBytes_printed ends value.toInt
  rw [expect, skipped, left, read, rest, Int64.ofInt_toInt]

-- What stands behind a number is skipped with the next one, so the induction carries it along in
-- front of the numbers still to be read.
theorem answers_printed {α : Type} {encode : α → List UInt8} {numbers : List (Int64 × α)}
    (separated : ∀ number ∈ numbers, Separates (encode number.2)) (front : List UInt8)
    (noise : ∀ byte ∈ front, isNoise byte = true) :
    (answers expect (List.replicate numbers.length .integer)
        (front ++ numbers.flatMap fun number => printed number.1.toInt ++ encode number.2)).1 =
      numbers.map Prod.fst := by
  induction numbers generalizing front with
  | nil => rfl
  | cons number rest ih =>
    have here := separated number List.mem_cons_self
    have later := ih (fun other member => separated other (List.mem_cons_of_mem _ member))
      (encode number.2) here.2
    rw [List.flatMap_cons, List.append_assoc, List.length_cons, List.replicate_succ, answers,
      expect_printed noise (here.ends _)]
    exact congrArg (List.cons number.1) later

theorem serve_printed {α : Type} (encode : α → List UInt8) {numbers : List (Int64 × α)}
    (separated : ∀ number ∈ numbers, Separates (encode number.2)) :
    (answers serve (List.replicate numbers.length .integer)
        (ofBytes (numbers.flatMap fun number => printed number.1.toInt ++ encode number.2))).1 =
      numbers.map Prod.fst := by
  rw [(answers_holds (holds_ofBytes _) _).1]
  exact answers_printed separated [] (by simp)

end Input

namespace Output

def appendNumbers (output : Output) (numbers : List (Int64 × Char)) : Output :=
  numbers.foldl (fun output number => (output.appendInteger number.1).append number.2) output

theorem fresh_records : Records [] {} := ⟨rfl, rfl, rfl⟩

theorem appendInteger_records {text : List Char} {output : Output} (records : Records text output)
    (value : Int64) :
    Records (text ++ (toString value.toInt).toList) (output.appendInteger value) :=
  appendAll_records records _

theorem appendNumbers_records {text : List Char} {output : Output} (records : Records text output)
    (numbers : List (Int64 × Char)) :
    Records
      (text ++ numbers.flatMap fun number => (toString number.1.toInt).toList ++ [number.2])
      (output.appendNumbers numbers) := by
  induction numbers generalizing text output with
  | nil => simpa [appendNumbers] using records
  | cons number rest ih =>
    have whole := ih (append_records (appendInteger_records records number.1) number.2)
    rw [List.append_assoc, List.append_assoc, ← List.append_assoc _ [number.2]] at whole
    exact whole

end Output

section ReadingBack
open Input Output Numeral

theorem textBytes_appendInteger (value : Int64) :
    textBytes (appendInteger {} value).written = printed value.toInt := by
  have records := appendInteger_records fresh_records value
  rw [printed, textBytes_eq, textBytes_eq, records.written, List.nil_append]

theorem textBytes_appendNumbers (numbers : List (Int64 × Char)) :
    textBytes (appendNumbers {} numbers).written =
      numbers.flatMap fun number =>
        printed number.1.toInt ++ String.utf8EncodeChar number.2 := by
  have records := appendNumbers_records fresh_records numbers
  rw [textBytes_eq, records.written, List.nil_append, List.flatMap_assoc]
  simp only [List.flatMap_append, List.flatMap_singleton, ← textBytes_eq, printed]

-- Numbers that are printed, each with something behind it that is neither a digit nor a sign, are
-- read again one after the other: whether every number is printed by itself and one byte comes
-- after it, or all is printed to one output with characters between the numbers.
theorem numbers_read_back :
    (∀ numbers : List (Int64 × UInt8), (∀ number ∈ numbers, isNoise number.2 = true) →
      (answers serve (List.replicate numbers.length .integer)
          (ofBytes (numbers.flatMap fun number =>
            textBytes (appendInteger {} number.1).written ++ [number.2]))).1 =
        numbers.map Prod.fst) ∧
    ∀ numbers : List (Int64 × Char),
      (∀ number ∈ numbers, number.2 ≠ '+' ∧ number.2 ≠ '-' ∧ number.2.isDigit = false) →
      (answers serve (List.replicate numbers.length .integer)
          (ofBytes (textBytes (appendNumbers {} numbers).written))).1 =
        numbers.map Prod.fst := by
  constructor
  · intro numbers noise
    simp only [textBytes_appendInteger]
    exact serve_printed (fun byte => [byte]) fun number member =>
      separates_byte (noise number member)
  · intro numbers apart
    rw [textBytes_appendNumbers]
    apply serve_printed String.utf8EncodeChar
    intro number member
    obtain ⟨plus, minus, digit⟩ := apart number member
    exact separates_char plus minus digit

-- The least and the greatest word, with a blank, a letter of two bytes and a byte of no text.
theorem numbers_read_back_limits :
    let bytes := fun value : Int64 => textBytes (appendInteger {} value).written
    (answers serve [.integer, .integer]
        (ofBytes (bytes Int64.minValue ++ [32] ++ (bytes Int64.maxValue ++ [255])))).1 =
      [Int64.minValue, Int64.maxValue] ∧
    (answers serve [.integer, .integer]
        (ofBytes (textBytes
          (appendNumbers {} [(Int64.minValue, 'é'), (Int64.maxValue, ' ')]).written))).1 =
      [Int64.minValue, Int64.maxValue] := by
  intro bytes
  obtain ⟨apart, together⟩ := numbers_read_back
  have first := apart [(Int64.minValue, 32), (Int64.maxValue, 255)]
    (by simp [isNoise, isSign, isFigure])
  rw [List.flatMap_cons, List.flatMap_cons, List.flatMap_nil, List.append_nil] at first
  exact ⟨first, together [(Int64.minValue, 'é'), (Int64.maxValue, ' ')] (by simp)⟩

end ReadingBack

end Hexagony
