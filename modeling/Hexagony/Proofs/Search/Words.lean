import Mathlib.Data.List.Nodup
import Mathlib.Data.Nat.Digits.Lemmas
import Hexagony.Search.Candidates

namespace Hexagony

theorem advanceDigits_of_some {base digit : Nat} {rest others : List Nat}
    (onward : advanceDigits base rest = some others) :
    advanceDigits base (digit :: rest) = some (digit :: others) := by
  rw [advanceDigits, onward]

theorem advanceDigits_of_none {base digit : Nat} {rest : List Nat}
    (last : advanceDigits base rest = none) :
    advanceDigits base (digit :: rest) =
      if digit + 1 < base then some ((digit + 1) :: List.replicate rest.length 0) else none := by
  rw [advanceDigits, last, List.map_const']

theorem advanceDigits_length {base : Nat} {digits later : List Nat}
    (advanced : advanceDigits base digits = some later) : later.length = digits.length := by
  induction digits generalizing later with
  | nil => cases advanced
  | cons digit rest ih =>
    cases onward : advanceDigits base rest with
    | some others =>
      rw [advanceDigits_of_some onward] at advanced
      cases advanced
      rw [List.length_cons, List.length_cons, ih onward]
    | none =>
      rw [advanceDigits_of_none onward] at advanced
      split at advanced
      · cases advanced
        simp
      · cases advanced

-- A reading with the number it shows, the first wheel being worth most.
structure Shows (base : Nat) (digits : List Nat) (number : Nat) : Prop where
  within : ∀ digit ∈ digits, digit < base
  value : Nat.ofDigits base digits.reverse = number

section Readings
variable {base digit number : Nat} {digits rest : List Nat}

theorem shows_nil (base : Nat) : Shows base [] 0 := ⟨by simp, rfl⟩

theorem shows_cons :
    Shows base (digit :: rest) number ↔
      ∃ low, Shows base rest low ∧ digit < base ∧ number = low + base ^ rest.length * digit := by
  constructor
  · rintro ⟨within, value⟩
    rw [Nat.ofDigits_reverse_cons] at value
    obtain ⟨first, others⟩ := List.forall_mem_cons.mp within
    exact ⟨_, ⟨others, rfl⟩, first, value.symm⟩
  · rintro ⟨low, ⟨others, rfl⟩, first, rfl⟩
    exact ⟨List.forall_mem_cons.mpr ⟨first, others⟩, Nat.ofDigits_reverse_cons rest digit⟩

theorem shows_zeros (positive : 0 < base) (length : Nat) :
    Shows base (List.replicate length 0) 0 where
  within := by simp [positive]
  value := by rw [List.reverse_replicate, Nat.ofDigits_replicate_zero]

theorem Shows.lt (shows : Shows base digits number) : number < base ^ digits.length := by
  induction digits generalizing number with
  | nil =>
    obtain ⟨_, rfl⟩ := shows
    simp
  | cons digit rest ih =>
    obtain ⟨low, others, first, rfl⟩ := shows_cons.mp shows
    calc low + base ^ rest.length * digit
        < base ^ rest.length + base ^ rest.length * digit := Nat.add_lt_add_right (ih others) _
      _ = base ^ rest.length * (digit + 1) := by rw [Nat.mul_succ, Nat.add_comm]
      _ ≤ base ^ (digit :: rest).length := by
        rw [List.length_cons, Nat.pow_succ]
        exact Nat.mul_le_mul_left _ first

theorem Shows.digits_eq (shows : Shows base digits number) :
    digits = (Nat.digitsAppend base digits.length number).reverse := by
  obtain ⟨within, value⟩ := shows
  rcases Nat.lt_or_ge 1 base with large | small
  · have spelled : digits.reverse ∈ {spelling : List Nat |
        spelling.length = digits.length ∧ ∀ digit ∈ spelling, digit < base} :=
      ⟨List.length_reverse, by simpa using within⟩
    have back := (Nat.setInvOn_digitsAppend_ofDigits large digits.length).1 spelled
    rw [value] at back
    rw [back, List.reverse_reverse]
  · have zeros : digits = List.replicate digits.length 0 := by
      refine List.eq_replicate_of_mem fun digit member => ?_
      have below := within digit member
      omega
    have nothing : number = 0 := by
      rw [← value, zeros, List.reverse_replicate, Nat.ofDigits_replicate_zero]
    rw [nothing, Nat.digitsAppend, Nat.digits_zero]
    simpa using zeros

-- The step: a carry passes every wheel that turns over, since what those show is one less than the
-- worth of the wheel before them.
theorem advanceDigits_shows (shows : Shows base digits number) :
    (∃ later, advanceDigits base digits = some later ∧ Shows base later (number + 1)) ∨
    advanceDigits base digits = none ∧ number + 1 = base ^ digits.length := by
  induction digits generalizing number with
  | nil =>
    obtain ⟨_, rfl⟩ := shows
    exact .inr ⟨rfl, rfl⟩
  | cons digit rest ih =>
    obtain ⟨low, others, first, rfl⟩ := shows_cons.mp shows
    rcases ih others with ⟨later, onward, shown⟩ | ⟨last, full⟩
    · refine .inl ⟨digit :: later, advanceDigits_of_some onward, ?_⟩
      refine shows_cons.mpr ⟨low + 1, shown, first, ?_⟩
      rw [advanceDigits_length onward]
      omega
    · rw [advanceDigits_of_none last]
      by_cases turns : digit + 1 < base
      · refine .inl ⟨_, if_pos turns, ?_⟩
        refine shows_cons.mpr ⟨0, shows_zeros (by omega) _, turns, ?_⟩
        rw [List.length_replicate, Nat.mul_succ, ← full]
        omega
      · refine .inr ⟨if_neg turns, ?_⟩
        obtain rfl : base = digit + 1 := by omega
        rw [List.length_cons, Nat.pow_succ, Nat.mul_succ, ← full]
        omega

end Readings

namespace Words
variable {alphabet : Array Char} {digits : List Nat} {number : Nat}

inductive Gives : Words → List (List Char) → Prop where
  | ended {words : Words} (nothing : words.next? = none) : Gives words []
  | next {words rest : Words} {word : List Char} {others : List (List Char)}
      (first : words.next? = some (word, rest)) (later : Gives rest others) :
      Gives words (word :: others)

theorem Gives.foldl_eq {β : Type} {words : Words} {given : List (List Char)}
    (gives : Gives words given) (f : β → List Char → β) (count : Nat) (result : β) :
    words.foldl f count result = (given.take count).foldl f result := by
  induction gives generalizing count result with
  | ended nothing =>
    cases count with
    | zero => rfl
    | succ count =>
      rewrite [foldl, nothing]
      rfl
  | next first _ ih =>
    cases count with
    | zero => rfl
    | succ count =>
      rewrite [foldl, first]
      exact ih count _

theorem Gives.take_eq {words : Words} {given : List (List Char)} (gives : Gives words given)
    (count : Nat) : words.take count = given.take count := by
  rw [take, gives.foldl_eq]
  simp

theorem Gives.unique {words : Words} {given other : List (List Char)} (gives : Gives words given)
    (also : Gives words other) : given = other := by
  have whole := (gives.take_eq (given.length + other.length)).symm.trans
    (also.take_eq (given.length + other.length))
  rwa [List.take_of_length_le (by omega), List.take_of_length_le (by omega)] at whole

def Reads (alphabet : List Char) (length number : Nat) (word : List Char) : Prop :=
  ∃ digits, digits.length = length ∧ Shows alphabet.length digits number ∧
    word.map some = digits.map (alphabet[·]?)

theorem reads_of_shows (shows : Shows alphabet.size digits number) :
    Reads alphabet.toList digits.length number (digits.map (alphabet.getD · '.')) := by
  have letters : ∀ digit ∈ digits, some (alphabet.getD digit '.') = alphabet.toList[digit]? := by
    intro digit member
    have inside := shows.within digit member
    simp [inside]
  refine ⟨digits, rfl, shows, ?_⟩
  rw [List.map_map]
  exact List.map_congr_left letters

theorem Reads.length_eq {alphabet word : List Char} {length : Nat}
    (reads : Reads alphabet length number word) : word.length = length := by
  obtain ⟨digits, rfl, _, letters⟩ := reads
  simpa using congrArg List.length letters

theorem Reads.letters {alphabet word : List Char} {length : Nat}
    (reads : Reads alphabet length number word) : ∀ char ∈ word, char ∈ alphabet := by
  obtain ⟨digits, _, _, letters⟩ := reads
  intro char member
  have listed : some char ∈ digits.map (alphabet[·]?) :=
    letters ▸ List.mem_map.mpr ⟨char, member, rfl⟩
  obtain ⟨digit, _, found⟩ := List.mem_map.mp listed
  exact List.mem_of_getElem? found

theorem exists_reads {alphabet word : List Char} (letters : ∀ char ∈ word, char ∈ alphabet) :
    ∃ number < alphabet.length ^ word.length, Reads alphabet word.length number word := by
  have shows : Shows alphabet.length (word.map (alphabet.idxOf ·)) _ := ⟨?_, rfl⟩
  · have below := shows.lt
    rw [List.length_map] at below
    refine ⟨_, below, _, List.length_map _, shows, ?_⟩
    rw [List.map_map]
    refine List.map_congr_left fun char member => ?_
    exact (List.getElem?_idxOf (letters char member)).symm
  · intro digit member
    obtain ⟨char, listed, rfl⟩ := List.mem_map.mp member
    exact List.idxOf_lt_length_iff.mpr (letters char listed)

theorem Reads.word_unique {alphabet word other : List Char} {length : Nat}
    (reads : Reads alphabet length number word) (also : Reads alphabet length number other) :
    word = other := by
  obtain ⟨digits, rfl, shows, letters⟩ := reads
  obtain ⟨same, sized, shown, others⟩ := also
  have equal : same = digits := by rw [shown.digits_eq, sized, ← shows.digits_eq]
  rw [equal, ← letters] at others
  exact (List.map_injective_iff.mpr (Option.some_injective Char) others).symm

theorem digits_of_letters {alphabet word : List Char} (distinct : alphabet.Nodup)
    (within : ∀ digit ∈ digits, digit < alphabet.length)
    (letters : word.map some = digits.map (alphabet[·]?)) :
    word.map (alphabet.idxOf ·) = digits := by
  have places := congrArg (List.map fun letter => letter.elim 0 (alphabet.idxOf ·)) letters
  rw [List.map_map, List.map_map] at places
  refine places.trans ((List.map_congr_left fun digit member => ?_).trans (List.map_id digits))
  simp [within digit member, distinct.idxOf_getElem]

theorem Reads.number_unique {alphabet word : List Char} {length other : Nat}
    (distinct : alphabet.Nodup) (reads : Reads alphabet length number word)
    (also : Reads alphabet length other word) : number = other := by
  obtain ⟨digits, _, shows, letters⟩ := reads
  obtain ⟨others, _, shown, spelled⟩ := also
  rw [← shows.value, ← shown.value, ← digits_of_letters distinct shows.within letters,
    ← digits_of_letters distinct shown.within spelled]

-- The word that the digits of a number spell, with zeros in front up to the length.
def Spells (alphabet : List Char) (length number : Nat) (word : List Char) : Prop :=
  word.map some = (Nat.digitsAppend alphabet.length length number).reverse.map (alphabet[·]?)

theorem Reads.spells {alphabet word : List Char} {length : Nat}
    (reads : Reads alphabet length number word) : Spells alphabet length number word := by
  obtain ⟨digits, rfl, shows, letters⟩ := reads
  rw [Spells, ← shows.digits_eq]
  exact letters

def Numbered (alphabet : List Char) (length number : Nat) (given : List (List Char)) : Prop :=
  ∀ index word, given[index]? = some word → Reads alphabet length (number + index) word

theorem numbered_nil (alphabet : List Char) (length number : Nat) :
    Numbered alphabet length number [] := by
  intro index word listed
  cases listed

theorem numbered_cons {alphabet : List Char} {length : Nat} {word : List Char}
    {others : List (List Char)} (first : Reads alphabet length number word)
    (later : Numbered alphabet length (number + 1) others) :
    Numbered alphabet length number (word :: others) := by
  intro index found listed
  cases index with
  | zero =>
    cases listed
    exact first
  | succ index =>
    rw [Nat.add_comm index, ← Nat.add_assoc]
    exact later index found listed

theorem gives_of_shows {remaining : Nat} (shows : Shows alphabet.size digits number)
    (left : number + (remaining + 1) = alphabet.size ^ digits.length) :
    ∃ given, Gives {alphabet, digits := some digits} given ∧ given.length = remaining + 1 ∧
      Numbered alphabet.toList digits.length number given := by
  induction remaining generalizing digits number with
  | zero =>
    rcases advanceDigits_shows shows with ⟨later, onward, shown⟩ | ⟨last, _⟩
    · have beyond := shown.lt
      rw [advanceDigits_length onward] at beyond
      omega
    · have ends : Gives {alphabet, digits := advanceDigits alphabet.size digits} [] := by
        rw [last]
        exact .ended rfl
      exact ⟨_, .next rfl ends, rfl, numbered_cons (reads_of_shows shows) (numbered_nil _ _ _)⟩
  | succ remaining ih =>
    rcases advanceDigits_shows shows with ⟨later, onward, shown⟩ | ⟨_, full⟩
    · have sized := advanceDigits_length onward
      obtain ⟨others, given, count, numbered⟩ := ih shown (by rw [sized]; omega)
      rw [← onward] at given
      rw [sized] at numbered
      refine ⟨_, .next rfl given, by rw [List.length_cons, count], ?_⟩
      exact numbered_cons (reads_of_shows shows) numbered
    · omega

-- Unless there are places and no letters for them, the first reading is all zeros.
theorem ofAlphabet_begins {alphabet : List Char} {length : Nat}
    (possible : ¬(alphabet = [] ∧ 0 < length)) :
    ofAlphabet alphabet length =
        {alphabet := alphabet.toArray, digits := some (List.replicate length 0)} ∧
      Shows alphabet.toArray.size (List.replicate length 0) 0 := by
  refine ⟨by simpa [ofAlphabet] using possible, ?_⟩
  cases length with
  | zero => exact shows_nil _
  | succ length =>
    refine shows_zeros ?_ _
    rw [List.size_toArray, List.length_pos_iff]
    intro nothing
    exact possible ⟨nothing, Nat.succ_pos length⟩

theorem gives_ofAlphabet (alphabet : List Char) (length : Nat) :
    ∃ given, Gives (ofAlphabet alphabet length) given ∧
      given.length = alphabet.length ^ length ∧ Numbered alphabet length 0 given := by
  by_cases empty : alphabet = [] ∧ 0 < length
  · obtain ⟨rfl, positive⟩ := empty
    have ended : (ofAlphabet [] length).next? = none := by simp [ofAlphabet, next?, positive]
    exact ⟨[], .ended ended, by simp [positive.ne'], numbered_nil _ _ _⟩
  · obtain ⟨begins, shows⟩ := ofAlphabet_begins empty
    obtain ⟨remaining, enough⟩ := Nat.exists_eq_add_of_lt shows.lt
    obtain ⟨given, gives, count, numbered⟩ := gives_of_shows shows enough.symm
    rw [List.length_replicate] at numbered enough
    rw [begins]
    refine ⟨given, gives, ?_, numbered⟩
    rw [count, ← List.size_toArray, enough]
    omega

section All
variable {alphabet : List Char} {length : Nat} {word : List Char}

def all (alphabet : List Char) (length : Nat) : List (List Char) :=
  (ofAlphabet alphabet length).take (Nat.pow alphabet.length length)

theorem gives_all (alphabet : List Char) (length : Nat) :
    Gives (ofAlphabet alphabet length) (all alphabet length) ∧
      (all alphabet length).length = alphabet.length ^ length ∧
      Numbered alphabet length 0 (all alphabet length) := by
  obtain ⟨given, gives, count, numbered⟩ := gives_ofAlphabet alphabet length
  have whole : all alphabet length = given := by
    rw [all, gives.take_eq]
    exact List.take_of_length_le count.le
  rw [whole]
  exact ⟨gives, count, numbered⟩

theorem length_all (alphabet : List Char) (length : Nat) :
    (all alphabet length).length = Nat.pow alphabet.length length :=
  (gives_all alphabet length).2.1

theorem foldl_ofAlphabet {β : Type} (f : β → List Char → β) (alphabet : List Char) (length : Nat)
    (result : β) :
    (ofAlphabet alphabet length).foldl f (Nat.pow alphabet.length length) result =
      (all alphabet length).foldl f result := by
  obtain ⟨gives, _, _⟩ := gives_all alphabet length
  rw [gives.foldl_eq, List.take_of_length_le (length_all alphabet length).le]

theorem reads_all {index : Nat} (listed : (all alphabet length)[index]? = some word) :
    Reads alphabet length index word := by
  have reads := (gives_all alphabet length).2.2 index word listed
  rwa [Nat.zero_add] at reads

theorem mem_all : word ∈ all alphabet length ↔
    word.length = length ∧ ∀ char ∈ word, char ∈ alphabet := by
  constructor
  · intro member
    obtain ⟨index, listed⟩ := List.mem_iff_getElem?.mp member
    exact ⟨(reads_all listed).length_eq, (reads_all listed).letters⟩
  · rintro ⟨rfl, letters⟩
    obtain ⟨number, below, reads⟩ := exists_reads letters
    have present := List.getElem?_eq_getElem ((gives_all alphabet word.length).2.1.symm ▸ below)
    have same := reads.word_unique (reads_all present)
    exact List.mem_of_getElem? (present.trans (congrArg some same.symm))

theorem nodup_all (distinct : alphabet.Nodup) (length : Nat) : (all alphabet length).Nodup := by
  refine List.nodup_iff_getElem?_ne_getElem?.mpr fun first second before inside same => ?_
  have present := List.getElem?_eq_getElem inside
  rw [present] at same
  exact before.ne ((reads_all same).number_unique distinct (reads_all present))

end All

-- From the exponent 128 on, a power of two or more is past the limit, so the shortcut changes
-- nothing.
theorem total_eq_min (letters : Nat) {length : Nat} (short : length < 2 ^ 32) :
    total letters length = min (letters ^ length) (2 ^ 128 - 1) := by
  have whole : length % UInt32.size = length := Nat.mod_eq_of_lt short
  unfold total
  dsimp only
  rw [whole]
  split
  · rfl
  · rename_i large
    simp only [Bool.or_eq_true, decide_eq_true_eq, not_or, not_le, not_lt] at large
    have past : 2 ^ 128 ≤ letters ^ length :=
      calc 2 ^ 128 ≤ 2 ^ length := Nat.pow_le_pow_right (by decide) large.2
        _ ≤ letters ^ length := Nat.pow_le_pow_left large.1 length
    exact (Nat.min_eq_right (Nat.le_trans (Nat.sub_le _ _) past)).symm

-- All words of a length are given, as many as the power says, and each is spelled by the digits of
-- its index. The number of words is that power, up to the limit.
theorem ofAlphabet_exact (alphabet : List Char) (length : Nat) :
    (∃ given, Gives (ofAlphabet alphabet length) given ∧
      (∀ count, (ofAlphabet alphabet length).take count = given.take count) ∧
      given.length = alphabet.length ^ length ∧
      (length = 0 → given.length = 1) ∧ (alphabet = [] → 0 < length → given = []) ∧
      ∀ index < alphabet.length ^ length, ∃ word, given[index]? = some word ∧
        Spells alphabet length index word) ∧
    (length < 2 ^ 32 →
      total alphabet.length length = min (alphabet.length ^ length) (2 ^ 128 - 1)) := by
  refine ⟨?_, total_eq_min alphabet.length⟩
  obtain ⟨gives, count, _⟩ := gives_all alphabet length
  refine ⟨_, gives, gives.take_eq, count, ?_, ?_, ?_⟩
  · rintro rfl
    simpa using count
  · rintro rfl positive
    simpa [positive.ne'] using count
  · intro index inside
    have present := List.getElem?_eq_getElem (count.symm ▸ inside)
    exact ⟨_, present, (reads_all present).spells⟩

-- Three wheels turn at once on the way to the word 144, and the words of 200 places are too many to
-- count.
theorem ofAlphabet_exact_carried :
    (∃ given, Gives (ofAlphabet ['x', 'y', 'z'] 5) given ∧ given.length = 243 ∧
      given[144]? = some ['y', 'z', 'y', 'x', 'x']) ∧
    200 < 2 ^ 32 ∧ total 3 200 = 2 ^ 128 - 1 := by
  obtain ⟨⟨given, gives, _, count, _, _, spelled⟩, _⟩ := ofAlphabet_exact ['x', 'y', 'z'] 5
  obtain ⟨_, limited⟩ := ofAlphabet_exact ['x', 'y', 'z'] 200
  obtain ⟨word, listed, spells⟩ := spelled 144 (by decide)
  have letters : word.map some = ['y', 'z', 'y', 'x', 'x'].map some := by
    rw [spells]
    simp [Nat.digitsAppend]
  obtain rfl := List.map_injective_iff.mpr (Option.some_injective Char) letters
  exact ⟨⟨given, gives, count, listed⟩, by decide, limited (by decide)⟩

end Words
end Hexagony
