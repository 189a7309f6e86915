import Mathlib.Data.List.Forall2
import Hexagony.Machine.Output

namespace Hexagony.Output

-- What may be printed for a character of the target: itself, or a blank for a line break.
def Stands (expected char : Char) : Prop := char = expected ∨ (expected = '\n' ∧ char = ' ')

def Accepts (target text : List Char) : Prop :=
  ∃ body breaks, text = body ++ breaks ∧ List.Forall₂ Stands target body ∧
    ∀ char ∈ breaks, char = '\n'

def Suits (target : List Char) (place : Nat) (char : Char) : Prop :=
  match target[place]? with
  | some expected => Stands expected char
  | none => char = '\n'

def Fits (target text : List Char) : Prop :=
  ∀ (place : Nat) (char : Char), text[place]? = some char → Suits target place char

section Texts
variable {target text more : List Char} {char : Char}

theorem suits_some {place : Nat} {expected : Char} (found : target[place]? = some expected) :
    Suits target place char ↔ Stands expected char := by
  rw [Suits, found]

theorem suits_none {place : Nat} (beyond : target.length ≤ place) :
    Suits target place char ↔ char = '\n' := by
  rw [Suits, List.getElem?_eq_none beyond]

theorem Accepts.fits (accepts : Accepts target text) : Fits target text := by
  obtain ⟨body, breaks, rfl, stands, blank⟩ := accepts
  have lengths := stands.length_eq
  intro place char found
  rcases Nat.lt_or_ge place body.length with inside | beyond
  · rw [List.getElem?_append_left inside] at found
    have expected : target[place]? = some target[place] := List.getElem?_eq_getElem (by omega)
    obtain ⟨_, rfl⟩ := List.getElem?_eq_some_iff.mp found
    exact (suits_some expected).mpr (stands.get (by omega) inside)
  · rw [List.getElem?_append_right beyond] at found
    exact (suits_none (by omega)).mpr (blank char (List.mem_of_getElem? found))

theorem accepts_iff : Accepts target text ↔ target.length ≤ text.length ∧ Fits target text := by
  constructor
  · intro accepts
    refine ⟨?_, accepts.fits⟩
    obtain ⟨body, breaks, rfl, stands, _⟩ := accepts
    rw [List.length_append, stands.length_eq]
    exact Nat.le_add_right _ _
  · rintro ⟨long, fits⟩
    refine ⟨text.take target.length, text.drop target.length, ?_, ?_, ?_⟩
    · rw [List.take_append_drop]
    · refine List.forall₂_iff_get.mpr ⟨?_, ?_⟩
      · rw [List.length_take_of_le long]
      · intro place inside within
        have found : text[place]? = some text[place] := List.getElem?_eq_getElem (by omega)
        have expected : target[place]? = some target[place] := List.getElem?_eq_getElem inside
        simpa using (suits_some expected).mp (fits place _ found)
    · intro char member
      obtain ⟨place, found⟩ := List.mem_iff_getElem?.mp member
      rw [List.getElem?_drop] at found
      exact (suits_none (Nat.le_add_right _ _)).mp (fits _ char found)

theorem fits_nil (target : List Char) : Fits target [] := by
  intro place char found
  simp at found

theorem fits_append_left (fits : Fits target (text ++ more)) : Fits target text := by
  intro place char found
  have inside := (List.getElem?_eq_some_iff.mp found).1
  exact fits place char (by rw [List.getElem?_append_left inside, found])

theorem fits_concat :
    Fits target (text ++ [char]) ↔ Fits target text ∧ Suits target text.length char := by
  constructor
  · intro fits
    exact ⟨fits_append_left fits, fits text.length char (by simp)⟩
  · rintro ⟨fits, suits⟩ place other found
    rcases Nat.lt_or_ge place text.length with inside | beyond
    · rw [List.getElem?_append_left inside] at found
      exact fits place other found
    · rw [List.getElem?_append_right beyond, List.getElem?_singleton] at found
      split at found
      · obtain rfl := Option.some.inj found
        obtain rfl : place = text.length := by omega
        exact suits
      · cases found

theorem fits_iff_prefix : Fits target text ↔ ∃ whole, text <+: whole ∧ Accepts target whole := by
  constructor
  · intro fits
    refine ⟨text ++ target.drop text.length, List.prefix_append _ _, accepts_iff.mpr ⟨?_, ?_⟩⟩
    · rw [List.length_append, List.length_drop]
      omega
    · intro place char found
      rcases Nat.lt_or_ge place text.length with inside | beyond
      · rw [List.getElem?_append_left inside] at found
        exact fits place char found
      · rw [List.getElem?_append_right beyond, List.getElem?_drop,
          Nat.add_sub_cancel' beyond] at found
        exact (suits_some found).mpr (.inl rfl)
  · rintro ⟨_, ⟨rest, rfl⟩, accepts⟩
    exact fits_append_left accepts.fits

end Texts

structure Records (text : List Char) (output : Output) : Prop where
  unchecked : output.target = none
  success : output.success = true
  written : output.written.toList = text

structure Judges (target text : List Char) (output : Output) : Prop where
  checked : output.target = some target
  success : output.success = true ↔ Fits target text
  length : output.success = true → output.length = min target.length text.length

section Writing
variable {target text : List Char} {output : Output}

theorem append_records (records : Records text output) (char : Char) :
    Records (text ++ [char]) (output.append char) := by
  have unchecked := records.unchecked
  simp only [append, unchecked]
  refine ⟨rfl, records.success, ?_⟩
  rw [String.toList_push, records.written]

theorem appendAll_records (records : Records text output) (more : List Char) :
    Records (text ++ more) (output.appendAll more) := by
  induction more generalizing text output with
  | nil => simpa [appendAll] using records
  | cons char rest ih =>
    have once := append_records records char
    have whole := ih once
    rw [List.append_assoc, List.singleton_append] at whole
    rw [appendAll]
    simpa only [once.success, if_true] using whole

theorem finish_records (records : Records text output) : Records text output.finish := by
  have same : output.finish = output := by
    rw [finish, records.unchecked]
  rw [same]
  exact records

theorem fits_iff {expected char : Char} : fits expected char = true ↔ Stands expected char := by
  rw [fits, Stands, Bool.or_eq_true, Bool.and_eq_true, beq_iff_eq, beq_iff_eq, beq_iff_eq]
  exact or_congr_left eq_comm

theorem append_cases (checked : output.target = some target) (char : Char) :
    (Suits target output.length char ∧ output.length < target.length ∧
        output.append char = {output with length := output.length + 1}) ∨
      (Suits target output.length char ∧ target.length ≤ output.length ∧
        output.append char = output) ∨
      (¬Suits target output.length char ∧
        output.append char = {output with success := false}) := by
  unfold append Suits
  rw [checked]
  dsimp only
  rcases Nat.lt_or_ge output.length target.length with inside | beyond
  · rw [List.getElem?_eq_getElem inside]
    dsimp only
    rw [← fits_iff]
    by_cases suits : fits target[output.length] char = true
    · exact .inl ⟨suits, inside, if_pos suits⟩
    · exact .inr (.inr ⟨suits, if_neg suits⟩)
  · rw [List.getElem?_eq_none beyond]
    by_cases breaks : char = '\n'
    · exact .inr (.inl ⟨breaks, beyond, if_pos breaks⟩)
    · exact .inr (.inr ⟨breaks, if_neg breaks⟩)

-- While all is well the next place of the target is that of the text; past the end of the target
-- both are nowhere.
theorem Judges.suits_iff (judges : Judges target text output) (going : output.success = true)
    (char : Char) : Suits target output.length char ↔ Suits target text.length char := by
  rw [judges.length going]
  rcases Nat.le_total target.length text.length with beyond | inside
  · rw [Nat.min_eq_left beyond, suits_none (Nat.le_refl _), suits_none beyond]
  · rw [Nat.min_eq_right inside]

theorem append_judges (judges : Judges target text output) (going : output.success = true)
    (char : Char) : Judges target (text ++ [char]) (output.append char) := by
  have fits := judges.success.mp going
  have length := judges.length going
  have place := judges.suits_iff going char
  rcases append_cases judges.checked char with
    ⟨suits, inside, appended⟩ | ⟨suits, beyond, appended⟩ | ⟨misfits, appended⟩
  · rw [appended]
    refine ⟨judges.checked, ?_, ?_⟩
    · exact iff_of_true going (fits_concat.mpr ⟨fits, place.mp suits⟩)
    · intro _
      rw [List.length_append, List.length_singleton]
      dsimp only
      omega
  · rw [appended]
    refine ⟨judges.checked, ?_, ?_⟩
    · exact iff_of_true going (fits_concat.mpr ⟨fits, place.mp suits⟩)
    · intro _
      rw [List.length_append, List.length_singleton]
      omega
  · rw [appended]
    refine ⟨judges.checked, ?_, by simp⟩
    refine iff_of_false (by simp) ?_
    intro whole
    exact misfits (place.mpr (fits_concat.mp whole).2)

theorem success_of_append {char : Char} (success : (output.append char).success = true) :
    output.success = true := by
  cases aim : output.target with
  | none =>
    unfold append at success
    rw [aim] at success
    exact success
  | some target =>
    rcases append_cases aim char with ⟨_, _, appended⟩ | ⟨_, _, appended⟩ | ⟨_, appended⟩ <;>
      rw [appended] at success
    · exact success
    · exact success
    · cases success

theorem success_of_appendAll {text : List Char}
    (success : (output.appendAll text).success = true) : output.success = true := by
  induction text generalizing output with
  | nil => exact success
  | cons char rest ih =>
    rw [appendAll] at success
    split at success
    · exact success_of_append (ih success)
    · exact success_of_append success

theorem success_of_finish (success : output.finish.success = true) : output.success = true := by
  unfold finish at success
  split at success
  · exact success
  · exact (Bool.and_eq_true_iff.mp success).1

theorem append_target (checked : output.target = some target) (char : Char) :
    (output.append char).target = some target ∧ (output.append char).written = output.written := by
  rcases append_cases checked char with ⟨_, _, appended⟩ | ⟨_, _, appended⟩ | ⟨_, appended⟩ <;>
    rw [appended] <;> exact ⟨checked, rfl⟩

-- Characters are also taken after one that is out of place. The length may then go on, but not the
-- success.
theorem append_judges_always (judges : Judges target text output) (char : Char) :
    Judges target (text ++ [char]) (output.append char) := by
  cases going : output.success with
  | true => exact append_judges judges going char
  | false =>
    have failed : ¬(output.append char).success = true := by
      intro success
      rw [success_of_append success] at going
      cases going
    refine ⟨(append_target judges.checked char).1, iff_of_false failed ?_, ?_⟩
    · intro fits
      rw [judges.success.mpr (fits_append_left fits)] at going
      cases going
    · exact fun success => absurd success failed

theorem foldl_judges (judges : Judges target text output) (more : List Char) :
    Judges target (text ++ more) (more.foldl append output) ∧
      (more.foldl append output).written = output.written := by
  induction more generalizing text output with
  | nil => simpa using judges
  | cons char rest ih =>
    obtain ⟨whole, kept⟩ := ih (append_judges_always judges char)
    rw [List.append_assoc, List.singleton_append] at whole
    rw [(append_target judges.checked char).2] at kept
    exact ⟨whole, kept⟩

theorem appendAll_judges (judges : Judges target text output) (going : output.success = true)
    (more : List Char) : Judges target (text ++ more) (output.appendAll more) := by
  induction more generalizing text output with
  | nil => simpa [appendAll] using judges
  | cons char rest ih =>
    have once := append_judges judges going char
    have split : text ++ char :: rest = text ++ [char] ++ rest := by simp
    rw [appendAll, split]
    cases well : (output.append char).success with
    | true => exact ih once well
    | false =>
      -- Nothing that follows can mend the text.
      have misfits : ¬Fits target (text ++ [char] ++ rest) := by
        intro fits
        rw [once.success.mpr (fits_append_left fits)] at well
        cases well
      refine ⟨once.checked, ?_, ?_⟩
      · exact iff_of_false (by simp [well]) misfits
      · intro mended
        simp [well] at mended

theorem finish_judges (judges : Judges target text output) :
    output.finish.success = true ↔ Accepts target text := by
  rw [finish, judges.checked, accepts_iff]
  simp only [Bool.and_eq_true, beq_iff_eq]
  constructor
  · rintro ⟨going, complete⟩
    have length := judges.length going
    exact ⟨by omega, judges.success.mp going⟩
  · rintro ⟨long, fits⟩
    have going := judges.success.mpr fits
    have length := judges.length going
    exact ⟨going, by omega⟩

end Writing

theorem finish_keeps (output : Output) :
    output.finish.length = output.length ∧ output.finish.written = output.written := by
  unfold finish
  split <;> exact ⟨rfl, rfl⟩

-- Characters that are checked one by one, whatever the verdict on those before: the verdict so far
-- is whether they begin an accepted text, and the final one whether they are such a text. Nothing
-- is written.
theorem checks_exactly (target sink : String) (text : List Char) :
    let output := text.foldl append (setTarget {written := sink} (some target))
    (output.success = true ↔ ∃ whole, text <+: whole ∧ Accepts target.toList whole) ∧
      (output.finish.success = true ↔ Accepts target.toList text) ∧
      (output.success = true → output.length = min target.toList.length text.length) ∧
      output.finish.length = output.length ∧
      output.written = sink ∧ output.finish.written = sink := by
  intro output
  have fresh : Judges target.toList [] (setTarget {written := sink} (some target)) :=
    ⟨rfl, iff_of_true rfl (fits_nil _), fun _ => (Nat.min_zero _).symm⟩
  obtain ⟨judges, kept⟩ := foldl_judges fresh text
  obtain ⟨sameLength, sameWritten⟩ := finish_keeps output
  refine ⟨?_, finish_judges judges, judges.length, sameLength, kept, sameWritten.trans kept⟩
  rw [← fits_iff_prefix]
  exact judges.success

-- A blank for the line break of the target, then a line break too many; and a line break too early,
-- after which the rest of the target makes up for the length and not for the verdict.
theorem checks_exactly_lenient :
    let start := setTarget {written := "so far"} (some "5\n6")
    let lenient := ['5', ' ', '6', '\n'].foldl append start
    let early := ['\n', '5', '\n', '6'].foldl append start
    lenient.success = true ∧ lenient.finish.success = true ∧ lenient.length = 3 ∧
      lenient.finish.written = "so far" ∧
      early.success = false ∧ early.finish.success = false ∧ early.length = 3 ∧
      early.finish.written = "so far" := by
  intro start lenient early
  have accepts : Accepts "5\n6".toList ['5', ' ', '6', '\n'] :=
    ⟨['5', ' ', '6'], ['\n'], rfl, by simp [Stands], by simp⟩
  have refuses : ¬∃ whole, ['\n', '5', '\n', '6'] <+: whole ∧ Accepts "5\n6".toList whole := by
    intro begun
    simpa [Suits, Stands] using fits_iff_prefix.mpr begun 0 '\n' rfl
  obtain ⟨begins, verdict, counted, _, _, kept⟩ :=
    checks_exactly "5\n6" "so far" ['5', ' ', '6', '\n']
  obtain ⟨fails, refused, _, _, _, unwritten⟩ :=
    checks_exactly "5\n6" "so far" ['\n', '5', '\n', '6']
  have well := begins.mpr ⟨_, List.prefix_rfl, accepts⟩
  refine ⟨well, verdict.mpr accepts, counted well, kept, ?_, ?_, by decide, unwritten⟩
  · exact Bool.eq_false_iff.mpr fun success => refuses (fails.mp success)
  · exact Bool.eq_false_iff.mpr fun success =>
      refuses ⟨_, List.prefix_rfl, refused.mp success⟩

end Hexagony.Output
