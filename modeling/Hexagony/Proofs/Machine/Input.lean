import Mathlib.Data.List.Induction
import Mathlib.Data.List.TakeWhile
import Mathlib.Data.Nat.Digits.Defs
import Hexagony.Machine.Input

namespace Hexagony

-- The first number of a text: what comes before it, its sign and its digits as far as it has them,
-- and what comes after it.
structure Numeral where
  noise : List UInt8
  sign : List UInt8
  digits : List UInt8
  rest : List UInt8

namespace Numeral

def isSign (byte : UInt8) : Bool := byte == 43 || byte == 45

def isFigure (byte : UInt8) : Bool := 48 ≤ byte.toNat && byte.toNat ≤ 57

def isNoise (byte : UInt8) : Bool := !isSign byte && !isFigure byte

def ofBytes (bytes : List UInt8) : Numeral :=
  let start := bytes.dropWhile isNoise
  let sign := (start.take 1).filter isSign
  let body := start.drop sign.length
  {noise := bytes.takeWhile isNoise
   sign := sign
   digits := body.takeWhile isFigure
   rest := body.dropWhile isFigure}

def magnitude (numeral : Numeral) : Nat :=
  Nat.ofDigits 10 (numeral.digits.reverse.map fun byte => byte.toNat - 48)

def value (numeral : Numeral) : Int :=
  if numeral.sign = [45] then -numeral.magnitude else numeral.magnitude

variable {byte : UInt8} {rest : List UInt8}

theorem isSign_iff : isSign byte = true ↔ byte = 43 ∨ byte = 45 := by
  simp [isSign]

theorem isFigure_iff : isFigure byte = true ↔ 48 ≤ byte.toNat ∧ byte.toNat ≤ 57 := by
  simp [isFigure]

theorem isNoise_iff : isNoise byte = true ↔ ¬isSign byte = true ∧ ¬isFigure byte = true := by
  simp [isNoise]

theorem not_isSign_of_isFigure (figure : isFigure byte = true) : ¬isSign byte = true := by
  rw [isSign_iff]
  rintro (rfl | rfl) <;> simp [isFigure_iff] at figure

theorem isNoise_or (byte : UInt8) :
    isNoise byte = true ∨ isSign byte = true ∨ isFigure byte = true := by
  rw [isNoise_iff]
  cases isSign byte <;> cases isFigure byte <;> simp

theorem ofBytes_noise (noise : isNoise byte = true) :
    ofBytes (byte :: rest) = {ofBytes rest with noise := byte :: (ofBytes rest).noise} := by
  simp [ofBytes, noise]

theorem ofBytes_sign (sign : isSign byte = true) :
    ofBytes (byte :: rest) =
      {noise := [], sign := [byte], digits := rest.takeWhile isFigure
       rest := rest.dropWhile isFigure} := by
  simp [ofBytes, isNoise, sign]

theorem ofBytes_figure (figure : isFigure byte = true) :
    ofBytes (byte :: rest) =
      {noise := [], sign := [], digits := (byte :: rest).takeWhile isFigure
       rest := (byte :: rest).dropWhile isFigure} := by
  simp [ofBytes, isNoise, figure, not_isSign_of_isFigure figure]

theorem ofBytes_parts (bytes : List UInt8) :
    (ofBytes bytes).noise ++ (ofBytes bytes).sign ++ (ofBytes bytes).digits ++
      (ofBytes bytes).rest = bytes := by
  have signed (start : List UInt8) :
      (start.take 1).filter isSign ++ start.drop ((start.take 1).filter isSign).length = start := by
    cases start with
    | nil => rfl
    | cons byte rest => cases sign : isSign byte <;> simp [sign]
  simp only [ofBytes, List.append_assoc, List.takeWhile_append_dropWhile, signed]

theorem magnitude_eq_foldl (numeral : Numeral) :
    numeral.magnitude =
      numeral.digits.foldl (fun number byte => 10 * number + (byte.toNat - 48)) 0 := by
  unfold magnitude
  induction numeral.digits using List.reverseRecOn with
  | nil => rfl
  | append_singleton digits byte ih =>
    rw [List.reverse_append, List.foldl_append, ← ih]
    simp [Nat.ofDigits_cons, Nat.add_comm]

end Numeral

namespace Input
open Numeral

-- The source gives these bytes and no others, with interruptions anywhere.
inductive Delivers : List ReadEvent → List UInt8 → Prop where
  | nothing : Delivers [] []
  | byte {events : List ReadEvent} {bytes : List UInt8} (value : UInt8)
      (delivers : Delivers events bytes) : Delivers (.byte value :: events) (value :: bytes)
  | interrupted {events : List ReadEvent} {bytes : List UInt8}
      (delivers : Delivers events bytes) : Delivers (.interrupted :: events) bytes

-- The bytes a reader has not given out yet. What is put back is the first of them, or the end of the
-- input where there are none.
inductive Holds : Input → List UInt8 → Prop where
  | source {events : List ReadEvent} {bytes : List UInt8} (delivers : Delivers events bytes) :
      Holds {events := events} bytes
  | kept {events : List ReadEvent} {bytes : List UInt8} (byte : UInt8)
      (delivers : Delivers events bytes) :
      Holds {events := events, pushedBack := some (wordOfByte byte)} (byte :: bytes)
  | finished {events : List ReadEvent} (delivers : Delivers events []) :
      Holds {events := events, pushedBack := some ended} []

section Values
variable {byte : UInt8}

theorem toInt_wordOfByte (byte : UInt8) : (wordOfByte byte).toInt = byte.toNat :=
  Int64.toInt_ofNat_of_lt (by have := byte.toNat_lt; omega)

theorem isDigit_wordOfByte (byte : UInt8) : isDigit (wordOfByte byte) = isFigure byte := by
  simp [isDigit, isFigure, Int64.le_iff_toInt_le, toInt_wordOfByte]

theorem wordOfByte_eq_iff {other : UInt8} : wordOfByte byte = wordOfByte other ↔ byte = other := by
  rw [← Int64.toInt_inj, toInt_wordOfByte, toInt_wordOfByte, Int.natCast_inj, UInt8.toNat_inj]

theorem wordOfByte_ne_ended (byte : UInt8) : wordOfByte byte ≠ ended := by
  intro same
  have values := congrArg Int64.toInt same
  rw [toInt_wordOfByte] at values
  have negative : ended.toInt = -1 := by decide
  omega

theorem lead?_ended : lead? ended = some (.stop ended) := rfl

theorem lead?_wordOfByte (byte : UInt8) :
    lead? (wordOfByte byte) =
      if byte = 43 then some (.sign false)
      else if byte = 45 then some (.sign true)
      else if isFigure byte = true then some (.stop (wordOfByte byte))
      else none := by
  have plus : wordOfByte byte = 43 ↔ byte = 43 := @wordOfByte_eq_iff byte 43
  have minus : wordOfByte byte = 45 ↔ byte = 45 := @wordOfByte_eq_iff byte 45
  simp only [lead?, plus, minus, isDigit_wordOfByte, wordOfByte_ne_ended, decide_false,
    Bool.or_false]

theorem lead?_of_noise (noise : isNoise byte = true) : lead? (wordOfByte byte) = none := by
  obtain ⟨unsigned, other⟩ := isNoise_iff.mp noise
  rw [isSign_iff, not_or] at unsigned
  rw [lead?_wordOfByte, if_neg unsigned.1, if_neg unsigned.2, if_neg other]

theorem lead?_of_sign (sign : isSign byte = true) :
    lead? (wordOfByte byte) = some (.sign (byte == 45)) := by
  rcases isSign_iff.mp sign with rfl | rfl <;> rfl

theorem lead?_of_figure (figure : isFigure byte = true) :
    lead? (wordOfByte byte) = some (.stop (wordOfByte byte)) := by
  have unsigned := not_isSign_of_isFigure figure
  rw [isSign_iff, not_or] at unsigned
  rw [lead?_wordOfByte, if_neg unsigned.1, if_neg unsigned.2, if_pos figure]

end Values

section Steps

theorem readByte_free (input : Input) : input.readByte.2.pushedBack = none := by
  unfold readByte
  split
  · rfl
  · assumption

theorem readByte_events (input : Input) :
    {events := input.readByte.2.events} = input.readByte.2 := by
  rw [← readByte_free input]

theorem seekIn_step (events : List ReadEvent) :
    seekIn events =
      match lead? (nextEvent events).1 with
      | some lead => lead.leave (nextEvent events).2
      | none => seekIn (nextEvent events).2 := by
  induction events with
  | nil => rfl
  | cons event rest ih =>
    cases event with
    | byte value => rfl
    | endOfInput => rfl
    | interrupted => exact ih
    | failed => rfl

theorem seek_step (input : Input) :
    input.seek =
      match lead? input.readByte.1 with
      | some lead => lead.leave input.readByte.2.events
      | none => input.readByte.2.seek := by
  obtain ⟨events, slot⟩ := input
  cases slot with
  | none => exact seekIn_step events
  | some value => rfl

def digitsFrom (number : Int64) (input : Input) : Int64 × Input :=
  match input.pushedBack with
  | none => digitsIn number input.events
  | some value =>
    if isDigit value then digitsIn (appendDigit number value) input.events else (number, input)

theorem digitsIn_step (number : Int64) (events : List ReadEvent) :
    digitsIn number events =
      if isDigit (nextEvent events).1 then
        digitsIn (appendDigit number (nextEvent events).1) (nextEvent events).2
      else (number, {events := (nextEvent events).2, pushedBack := some (nextEvent events).1}) := by
  induction events with
  | nil => rfl
  | cons event rest ih =>
    cases event with
    | byte value => rfl
    | endOfInput => rfl
    | interrupted => exact ih
    | failed => rfl

theorem digitsFrom_step (number : Int64) (input : Input) :
    digitsFrom number input =
      if isDigit input.readByte.1 then
        digitsFrom (appendDigit number input.readByte.1) input.readByte.2
      else (number, input.readByte.2.pushBack input.readByte.1) := by
  obtain ⟨events, slot⟩ := input
  cases slot with
  | none => exact digitsIn_step number events
  | some value => rfl

theorem seek_of_sign {input : Input} {negative : Bool}
    (lead : lead? input.readByte.1 = some (.sign negative)) :
    input.seek = (negative, input.readByte.2) := by
  rw [seek_step, lead]
  exact congrArg (Prod.mk negative) (readByte_events input)

theorem seek_of_stop {input : Input} {value : Int64}
    (lead : lead? input.readByte.1 = some (.stop value)) :
    input.seek = (false, input.readByte.2.pushBack value) := by
  rw [seek_step, lead, ← readByte_events]
  rfl

theorem seek_of_other {input : Input} (lead : lead? input.readByte.1 = none) :
    input.seek = input.readByte.2.seek := by
  rw [seek_step, lead]

end Steps

inductive Request where
  | byte
  | integer
  deriving DecidableEq

def serve : Request → Input → Int64 × Input
  | .byte, input => input.readByte
  | .integer, input => input.readInteger

-- The same requests made of the bytes that are left.
def expect : Request → List UInt8 → Int64 × List UInt8
  | .byte, [] => (ended, [])
  | .byte, byte :: rest => (wordOfByte byte, rest)
  | .integer, bytes => (Int64.ofInt (Numeral.ofBytes bytes).value, (Numeral.ofBytes bytes).rest)

def answers {σ : Type} (answer : Request → σ → Int64 × σ) : List Request → σ → List Int64 × σ
  | [], state => ([], state)
  | request :: rest, state =>
    let (value, next) := answer request state
    let (values, last) := answers answer rest next
    (value :: values, last)

section Bytes
variable {input : Input} {events : List ReadEvent} {byte : UInt8} {bytes : List UInt8}

theorem nextEvent_delivers (delivers : Delivers events bytes) :
    (nextEvent events).1 = (expect .byte bytes).1 ∧
      Delivers (nextEvent events).2 (expect .byte bytes).2 := by
  induction delivers with
  | nothing => exact ⟨rfl, .nothing⟩
  | byte value delivers => exact ⟨rfl, delivers⟩
  | interrupted delivers ih => exact ih

theorem readByte_holds (holds : Holds input bytes) :
    input.readByte.1 = (expect .byte bytes).1 ∧
      Holds input.readByte.2 (expect .byte bytes).2 := by
  cases holds with
  | source delivers =>
    obtain ⟨value, rest⟩ := nextEvent_delivers delivers
    exact ⟨value, .source rest⟩
  | kept byte delivers => exact ⟨rfl, .source delivers⟩
  | finished delivers => exact ⟨rfl, .source delivers⟩

theorem pushBack_holds (holds : Holds input bytes) :
    Holds (input.readByte.2.pushBack input.readByte.1) bytes := by
  cases holds with
  | @source events _ delivers =>
    obtain ⟨value, rest⟩ := nextEvent_delivers delivers
    change Holds {events := (nextEvent events).2, pushedBack := some (nextEvent events).1} bytes
    rw [value]
    cases bytes with
    | nil => exact .finished rest
    | cons byte bytes => exact .kept byte rest
  | kept byte delivers => exact .kept byte delivers
  | finished delivers => exact .finished delivers

theorem readByte_cons (holds : Holds input (byte :: bytes)) :
    input.readByte.1 = wordOfByte byte ∧ Holds input.readByte.2 bytes :=
  readByte_holds holds

theorem readByte_nil (holds : Holds input []) :
    input.readByte.1 = ended ∧ Holds input.readByte.2 [] :=
  readByte_holds holds

end Bytes

section Numbers
variable {input : Input} {bytes : List UInt8}

-- Skipping leaves what the digits are read from: the text behind the sign, or from the first digit
-- on.
theorem seek_holds (holds : Holds input bytes) :
    input.seek.1 = decide ((Numeral.ofBytes bytes).sign = [45]) ∧
      ∃ body, Holds input.seek.2 body ∧
        (Numeral.ofBytes bytes).digits = body.takeWhile isFigure ∧
        (Numeral.ofBytes bytes).rest = body.dropWhile isFigure := by
  induction bytes generalizing input with
  | nil =>
    have here := pushBack_holds holds
    rw [(readByte_nil holds).1] at here
    rw [seek_of_stop (by rw [(readByte_nil holds).1, lead?_ended])]
    exact ⟨rfl, [], here, rfl, rfl⟩
  | cons byte bytes ih =>
    obtain ⟨value, next⟩ := readByte_cons holds
    rcases isNoise_or byte with noise | sign | figure
    · rw [seek_of_other (by rw [value, lead?_of_noise noise]), ofBytes_noise noise]
      exact ih next
    · rw [seek_of_sign (by rw [value, lead?_of_sign sign]), ofBytes_sign sign]
      refine ⟨?_, bytes, next, rfl, rfl⟩
      simp [Bool.beq_eq_decide_eq]
    · have here := pushBack_holds holds
      rw [value] at here
      rw [seek_of_stop (by rw [value, lead?_of_figure figure]), ofBytes_figure figure]
      exact ⟨rfl, byte :: bytes, here, rfl, rfl⟩

theorem digitsFrom_holds (holds : Holds input bytes) (number : Int64) :
    (digitsFrom number input).1 =
        (bytes.takeWhile isFigure).foldl
          (fun number byte => appendDigit number (wordOfByte byte)) number ∧
      Holds (digitsFrom number input).2 (bytes.dropWhile isFigure) := by
  induction bytes generalizing input number with
  | nil =>
    obtain ⟨value, _⟩ := readByte_nil holds
    rw [digitsFrom_step, if_neg (by rw [value]; decide)]
    exact ⟨rfl, pushBack_holds holds⟩
  | cons byte bytes ih =>
    obtain ⟨value, next⟩ := readByte_cons holds
    rw [digitsFrom_step, value, isDigit_wordOfByte]
    cases figure : isFigure byte with
    | true =>
      rw [List.takeWhile_cons_of_pos figure, List.dropWhile_cons_of_pos figure]
      exact ih next _
    | false =>
      have stops : ¬isFigure byte = true := by rw [figure]; exact Bool.false_ne_true
      have here := pushBack_holds holds
      rw [value] at here
      rw [List.takeWhile_cons_of_neg stops, List.dropWhile_cons_of_neg stops]
      exact ⟨rfl, here⟩

theorem foldl_appendDigit {digits : List UInt8} (figures : ∀ byte ∈ digits, isFigure byte = true)
    (number : Nat) :
    digits.foldl (fun number byte => appendDigit number (wordOfByte byte)) (Int64.ofNat number) =
      Int64.ofNat (digits.foldl (fun number byte => 10 * number + (byte.toNat - 48)) number) := by
  induction digits generalizing number with
  | nil => rfl
  | cons byte rest ih =>
    have figure := figures byte List.mem_cons_self
    have appended : appendDigit (Int64.ofNat number) (wordOfByte byte) =
        Int64.ofNat (10 * number + (byte.toNat - 48)) := by
      have digit := (isFigure_iff.mp figure).1
      rw [Int64.ofNat_add, Int64.ofNat_mul, Int64.ofNat_sub _ _ digit, Int64.mul_comm]
      rfl
    rw [List.foldl_cons, List.foldl_cons, appended]
    exact ih (fun other member => figures other (List.mem_cons_of_mem _ member)) _

theorem readInteger_holds (holds : Holds input bytes) :
    input.readInteger.1 = (expect .integer bytes).1 ∧
      Holds input.readInteger.2 (expect .integer bytes).2 := by
  obtain ⟨negative, body, start, digits, rest⟩ := seek_holds holds
  obtain ⟨total, last⟩ := digitsFrom_holds start 0
  have figures : ∀ byte ∈ (Numeral.ofBytes bytes).digits, isFigure byte = true := by
    rw [digits]
    exact fun byte member => List.mem_takeWhile_imp member
  have added := foldl_appendDigit figures 0
  rw [← magnitude_eq_foldl] at added
  rw [← digits] at total
  rw [← rest] at last
  refine ⟨?_, last⟩
  change (if input.seek.1 = true then -(digitsFrom 0 input.seek.2).1
    else (digitsFrom 0 input.seek.2).1) = Int64.ofInt (Numeral.ofBytes bytes).value
  simp only [negative, total, decide_eq_true_iff, Numeral.value]
  split
  · rw [Int64.ofInt_neg, Int64.ofInt_eq_ofNat, ← added]
    rfl
  · rw [Int64.ofInt_eq_ofNat, ← added]
    rfl

end Numbers

-- How a number is read, value by value, up to its first digit or past its sign, and then up to what
-- is no digit. Each rule tells in which states of the reader a value is put back.
inductive Seeks : Input → List Input → Bool → Input → Prop where
  | sign {input next : Input} {value : Int64} {negative : Bool}
      (read : input.readByte = (value, next)) (lead : lead? value = some (.sign negative)) :
      Seeks input [] negative next
  | stop {input next : Input} {value : Int64}
      (read : input.readByte = (value, next)) (lead : lead? value = some (.stop value)) :
      Seeks input [next] false (next.pushBack value)
  | skip {input next last : Input} {value : Int64} {states : List Input} {negative : Bool}
      (read : input.readByte = (value, next)) (lead : lead? value = none)
      (more : Seeks next states negative last) : Seeks input states negative last

inductive Gathers : Int64 → Input → List Input → Int64 → Input → Prop where
  | digit {input next last : Input} {value number total : Int64} {states : List Input}
      (read : input.readByte = (value, next)) (digit : isDigit value = true)
      (more : Gathers (appendDigit number value) next states total last) :
      Gathers number input states total last
  | stop {input next : Input} {value number : Int64}
      (read : input.readByte = (value, next)) (other : isDigit value = false) :
      Gathers number input [next] number (next.pushBack value)

def ReadsBy (input : Input) (states : List Input) (value : Int64) (last : Input) : Prop :=
  ∃ before after negative start number,
    Seeks input before negative start ∧ Gathers 0 start after number last ∧
      states = before ++ after ∧ value = if negative = true then -number else number

section Loops
variable {input next last : Input} {states : List Input} {value number total : Int64}
  {negative : Bool} {bytes : List UInt8}

theorem free_of_read (read : input.readByte = (value, next)) :
    ∀ state ∈ [next], state.pushedBack = none := by
  intro state member
  have free := readByte_free input
  rw [read] at free
  rw [List.mem_singleton.mp member]
  exact free

-- Both loops put back only what they have just read, and reading has emptied the place for it.
theorem Seeks.free (seeks : Seeks input states negative last) :
    ∀ state ∈ states, state.pushedBack = none := by
  induction seeks with
  | sign => exact fun _ member => absurd member List.not_mem_nil
  | stop read => exact free_of_read read
  | skip _ _ _ ih => exact ih

theorem Gathers.free (gathers : Gathers number input states total last) :
    ∀ state ∈ states, state.pushedBack = none := by
  induction gathers with
  | digit _ _ _ ih => exact ih
  | stop read => exact free_of_read read

theorem ReadsBy.free (reads : ReadsBy input states value last) :
    ∀ state ∈ states, state.pushedBack = none := by
  obtain ⟨before, after, _, _, _, seeks, gathers, rfl, _⟩ := reads
  intro state member
  rcases List.mem_append.mp member with first | second
  · exact seeks.free state first
  · exact gathers.free state second

theorem lead?_stop {other : Int64} (lead : lead? value = some (.stop other)) : other = value := by
  unfold lead? at lead
  split at lead
  · cases lead
  · split at lead
    · cases lead
    · split at lead
      · cases lead
        rfl
      · cases lead

theorem seeks_of_stop (lead : lead? input.readByte.1 = some (.stop value)) :
    Seeks input [input.readByte.2] input.seek.1 input.seek.2 := by
  obtain rfl := lead?_stop lead
  rw [seek_of_stop lead]
  exact .stop rfl lead

theorem seek_seeks (holds : Holds input bytes) :
    ∃ states, Seeks input states input.seek.1 input.seek.2 := by
  induction bytes generalizing input with
  | nil =>
    have lead : lead? input.readByte.1 = some (.stop ended) := by
      rw [(readByte_nil holds).1, lead?_ended]
    exact ⟨_, seeks_of_stop lead⟩
  | cons byte bytes ih =>
    cases lead : lead? input.readByte.1 with
    | none =>
      obtain ⟨states, seeks⟩ := ih (readByte_cons holds).2
      rw [seek_of_other lead]
      exact ⟨states, .skip rfl lead seeks⟩
    | some found =>
      cases found with
      | sign negative =>
        rw [seek_of_sign lead]
        exact ⟨[], .sign rfl lead⟩
      | stop value => exact ⟨_, seeks_of_stop lead⟩

theorem gathers_of_other (number : Int64) (other : isDigit input.readByte.1 = false) :
    Gathers number input [input.readByte.2] (digitsFrom number input).1
      (digitsFrom number input).2 := by
  rw [digitsFrom_step, if_neg (Bool.eq_false_iff.mp other)]
  exact .stop rfl other

theorem digitsFrom_gathers (holds : Holds input bytes) (number : Int64) :
    ∃ states,
      Gathers number input states (digitsFrom number input).1 (digitsFrom number input).2 := by
  induction bytes generalizing input number with
  | nil =>
    have other : isDigit input.readByte.1 = false := by
      rw [(readByte_nil holds).1]
      rfl
    exact ⟨_, gathers_of_other number other⟩
  | cons byte bytes ih =>
    cases digit : isDigit input.readByte.1 with
    | true =>
      obtain ⟨states, gathers⟩ := ih (readByte_cons holds).2 (appendDigit number input.readByte.1)
      rw [digitsFrom_step, if_pos digit]
      exact ⟨states, .digit rfl digit gathers⟩
    | false => exact ⟨_, gathers_of_other number digit⟩

theorem readInteger_readsBy (holds : Holds input bytes) :
    ∃ states, ReadsBy input states input.readInteger.1 input.readInteger.2 := by
  obtain ⟨_, body, start, _⟩ := seek_holds holds
  obtain ⟨before, seeks⟩ := seek_seeks holds
  obtain ⟨after, gathers⟩ := digitsFrom_gathers start 0
  exact ⟨before ++ after, _, _, _, _, _, seeks, gathers, rfl, rfl⟩

end Loops

def Unread (input : Input) (bytes : List UInt8) : Prop :=
  ∀ more, (answers serve (List.replicate (bytes.length + more) .byte) input).1 =
    bytes.map wordOfByte ++ List.replicate more ended

section Requests
variable {input : Input} {bytes : List UInt8}

theorem serve_holds (holds : Holds input bytes) (request : Request) :
    (serve request input).1 = (expect request bytes).1 ∧
      Holds (serve request input).2 (expect request bytes).2 := by
  cases request with
  | byte => exact readByte_holds holds
  | integer => exact readInteger_holds holds

theorem answers_holds (holds : Holds input bytes) (requests : List Request) :
    (answers serve requests input).1 = (answers expect requests bytes).1 ∧
      Holds (answers serve requests input).2 (answers expect requests bytes).2 := by
  induction requests generalizing input bytes with
  | nil => exact ⟨rfl, holds⟩
  | cons request rest ih =>
    obtain ⟨value, next⟩ := serve_holds holds request
    obtain ⟨values, last⟩ := ih next
    exact ⟨List.cons_eq_cons.mpr ⟨value, values⟩, last⟩

theorem unread_of_holds (holds : Holds input bytes) : Unread input bytes := by
  intro more
  rw [(answers_holds holds _).1]
  clear holds
  induction bytes with
  | nil =>
    rw [List.length_nil, Nat.zero_add]
    induction more with
    | zero => rfl
    | succ more ih => exact congrArg (List.cons ended) ih
  | cons byte bytes ih =>
    rw [List.length_cons, Nat.add_right_comm]
    exact congrArg (List.cons (wordOfByte byte)) ih

theorem delivers_bytes (bytes : List UInt8) : Delivers (bytes.map .byte) bytes := by
  induction bytes with
  | nil => exact .nothing
  | cons byte bytes ih => exact .byte byte ih

theorem holds_ofBytes (bytes : List UInt8) : Holds (ofBytes bytes) bytes :=
  .source (delivers_bytes bytes)

end Requests

-- After any requests of a source of bytes, interrupted or not, a number is read from the bytes that
-- are left: it is the one of the grammar, modulo the word size, and what comes after it is left. A
-- value is put back only where none is kept. The answers are those of the source without
-- interruptions.
theorem integers_read_exactly {events : List ReadEvent} {bytes : List UInt8}
    (delivers : Delivers events bytes) (requests : List Request) :
    let reader := (answers serve requests {events := events}).2
    let plain := (answers serve requests (ofBytes bytes)).2
    let unread := (answers expect requests bytes).2
    let numeral := Numeral.ofBytes unread
    Unread reader unread ∧
      numeral.noise ++ numeral.sign ++ numeral.digits ++ numeral.rest = unread ∧
      reader.readInteger.1 = Int64.ofInt numeral.value ∧
      Unread reader.readInteger.2 numeral.rest ∧
      (∃ states, ReadsBy reader states reader.readInteger.1 reader.readInteger.2 ∧
        ∀ state ∈ states, state.pushedBack = none) ∧
      (answers serve requests {events := events}).1 =
        (answers serve requests (ofBytes bytes)).1 ∧
      reader.readInteger.1 = plain.readInteger.1 := by
  intro reader plain unread numeral
  obtain ⟨values, holds⟩ := answers_holds (.source delivers) requests
  obtain ⟨others, same⟩ := answers_holds (holds_ofBytes bytes) requests
  obtain ⟨value, rest⟩ := readInteger_holds holds
  obtain ⟨states, reads⟩ := readInteger_readsBy holds
  exact ⟨unread_of_holds holds, ofBytes_parts unread, value, unread_of_holds rest,
    ⟨states, reads, reads.free⟩, values.trans others.symm,
    value.trans (readInteger_holds same).1.symm⟩

-- In `a+7x-18446744073709551621`, interrupted twice, after the first number and one more byte: what
-- is read next is five past the number of words, below zero.
theorem integers_read_exactly_wrapped :
    let digits : List UInt8 :=
      [49, 56, 52, 52, 54, 55, 52, 52, 48, 55, 51, 55, 48, 57, 53, 53, 49, 54, 50, 49]
    let events := [.byte 97, .byte 43, .interrupted, .byte 55, .byte 120, .interrupted, .byte 45] ++
      digits.map ReadEvent.byte
    let reader := (answers serve [.integer, .byte] {events := events}).2
    Delivers events ([97, 43, 55, 120, 45] ++ digits) ∧ Unread reader (45 :: digits) ∧
      reader.readInteger.1 = -5 ∧ Unread reader.readInteger.2 [] := by
  intro digits events reader
  have delivers : Delivers events ([97, 43, 55, 120, 45] ++ digits) :=
    .byte 97 (.byte 43 (.interrupted (.byte 55 (.byte 120 (.interrupted (.byte 45
      (delivers_bytes digits)))))))
  obtain ⟨unread, _, value, rest, _⟩ := integers_read_exactly delivers [.integer, .byte]
  exact ⟨delivers, unread, value.trans (by decide), rest⟩

end Input
end Hexagony
