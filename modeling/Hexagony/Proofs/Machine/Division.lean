import Mathlib.Tactic.Common
import Hexagony.Machine.Basic

namespace Hexagony.Division

structure Floored (dividend divisor quotient remainder : Int) : Prop where
  whole : quotient * divisor + remainder = dividend
  small : remainder.natAbs < divisor.natAbs
  sign : remainder = 0 ∨ remainder.sign = divisor.sign

section Integers
variable {dividend divisor quotient remainder : Int}

theorem natAbs_tmod_lt (nonzero : divisor ≠ 0) (dividend : Int) :
    (dividend.tmod divisor).natAbs < divisor.natAbs := by
  rw [Int.natAbs_tmod]
  exact Nat.mod_lt _ (Int.natAbs_pos.mpr nonzero)

theorem tmod_nonpos (negative : dividend < 0) (divisor : Int) : dividend.tmod divisor ≤ 0 := by
  have opposite := Int.tmod_nonneg (a := -dividend) divisor (by omega)
  rw [Int.neg_tmod] at opposite
  omega

theorem natAbs_tdiv_le_half (nonzero : divisor ≠ 0) (left : dividend.tmod divisor ≠ 0) :
    (dividend.tdiv divisor).natAbs ≤ dividend.natAbs / 2 := by
  have small := natAbs_tmod_lt nonzero dividend
  rw [Int.natAbs_tdiv]
  exact Nat.div_le_div_left (by omega) (by decide)

theorem Floored.of_signs (whole : quotient * divisor + remainder = dividend)
    (small : remainder.natAbs < divisor.natAbs) (positive : 0 < divisor → 0 ≤ remainder)
    (negative : divisor < 0 → remainder ≤ 0) : Floored dividend divisor quotient remainder := by
  refine ⟨whole, small, ?_⟩
  rcases Int.lt_trichotomy remainder 0 with below | zero | above
  · right
    rw [Int.sign_eq_neg_one_of_neg below, Int.sign_eq_neg_one_of_neg (by omega)]
  · exact .inl zero
  · right
    rw [Int.sign_eq_one_of_pos above, Int.sign_eq_one_of_pos (by omega)]

theorem floored_tdiv (nonzero : divisor ≠ 0)
    (agree : dividend.tmod divisor = 0 ∨ (dividend < 0 ↔ divisor < 0)) :
    Floored dividend divisor (dividend.tdiv divisor) (dividend.tmod divisor) := by
  refine .of_signs (Int.tdiv_mul_add_tmod dividend divisor) (natAbs_tmod_lt nonzero dividend) ?_ ?_
  · intro positive
    rcases agree with zero | same
    · omega
    · exact Int.tmod_nonneg divisor (by omega)
  · intro negative
    rcases agree with zero | same
    · omega
    · exact tmod_nonpos (same.mpr negative) divisor

theorem floored_corrected (nonzero : divisor ≠ 0) (left : dividend.tmod divisor ≠ 0)
    (differ : ¬(dividend < 0 ↔ divisor < 0)) :
    Floored dividend divisor (dividend.tdiv divisor - 1) (dividend.tmod divisor + divisor) := by
  have small := natAbs_tmod_lt nonzero dividend
  have above := Int.tmod_nonneg (a := dividend) divisor
  have below (negative : dividend < 0) := tmod_nonpos negative divisor
  have whole := Int.tdiv_mul_add_tmod dividend divisor
  refine .of_signs ?_ (by omega) (by omega) (by omega)
  rw [Int.sub_mul, Int.one_mul]
  omega

theorem Floored.unique (floored : Floored dividend divisor quotient remainder) :
    quotient = dividend.fdiv divisor ∧ remainder = dividend.fmod divisor := by
  obtain ⟨whole, small, sign⟩ := floored
  rw [Int.mul_comm, Int.add_comm] at whole
  rcases Int.lt_trichotomy divisor 0 with below | zero | above
  · have nonpos : remainder ≤ 0 := by
      rcases sign with zero | same
      · omega
      · rw [Int.sign_eq_neg_one_of_neg below, Int.sign_eq_neg_one_iff_neg] at same
        omega
    obtain ⟨first, second⟩ := (Int.fdiv_fmod_unique' below).mpr ⟨whole, by omega, nonpos⟩
    exact ⟨first.symm, second.symm⟩
  · omega
  · have nonneg : 0 ≤ remainder := by
      rcases sign with zero | same
      · omega
      · rw [Int.sign_eq_one_of_pos above, Int.sign_eq_one_iff_pos] at same
        omega
    obtain ⟨first, second⟩ := (Int.fdiv_fmod_unique above).mpr ⟨whole, nonneg, by omega⟩
    exact ⟨first.symm, second.symm⟩

end Integers

section Words
variable {dividend divisor : Int64}

def Corrects (dividend divisor : Int64) : Prop :=
  dividend % divisor ≠ 0 ∧ ¬(dividend < 0 ↔ divisor < 0)
  deriving Decidable

theorem corrects_iff :
    Corrects dividend divisor ↔
      dividend.toInt.tmod divisor.toInt ≠ 0 ∧ ¬(dividend.toInt < 0 ↔ divisor.toInt < 0) := by
  have zero : dividend % divisor = 0 ↔ dividend.toInt.tmod divisor.toInt = 0 := by
    rw [← Int64.toInt_inj, Int64.toInt_mod, Int64.toInt_zero]
  rw [Corrects, ne_eq, zero, Int64.lt_iff_toInt_lt, Int64.lt_iff_toInt_lt, Int64.toInt_zero]

theorem floorDivMod?_of_corrects (nonzero : divisor ≠ 0) (corrects : Corrects dividend divisor) :
    floorDivMod? dividend divisor = some (dividend / divisor - 1, dividend % divisor + divisor) := by
  unfold floorDivMod?
  rw [if_neg nonzero]
  exact if_pos ⟨corrects.1, by simpa using corrects.2⟩

theorem floorDivMod?_of_not_corrects (nonzero : divisor ≠ 0)
    (keeps : ¬Corrects dividend divisor) :
    floorDivMod? dividend divisor = some (dividend / divisor, dividend % divisor) := by
  unfold floorDivMod?
  rw [if_neg nonzero]
  exact if_neg fun corrects => keeps ⟨corrects.1, by simpa using corrects.2⟩

theorem toInt_ne_zero (nonzero : divisor ≠ 0) : divisor.toInt ≠ 0 := by
  intro zero
  exact nonzero (Int64.toInt_inj.mp zero)

-- One quotient alone has no word.
theorem toInt_quotient (fits : ¬(dividend = Int64.minValue ∧ divisor = -1)) :
    (dividend / divisor).toInt = dividend.toInt.tdiv divisor.toInt := by
  by_cases least : dividend = Int64.minValue
  · exact Int64.toInt_div_of_ne_right _ _ fun minus => fits ⟨least, minus⟩
  · exact Int64.toInt_div_of_ne_left _ _ least

theorem fits_of_corrects (corrects : Corrects dividend divisor) :
    ¬(dividend = Int64.minValue ∧ divisor = -1) := by
  rintro ⟨rfl, rfl⟩
  exact corrects.1 (by decide)

-- A remainder of the other sign brings the divisor nearer to zero, and a quotient of at most half
-- a word's size has one below it.
theorem toInt_corrected (nonzero : divisor ≠ 0) (corrects : Corrects dividend divisor) :
    (dividend % divisor + divisor).toInt = (dividend % divisor).toInt + divisor.toInt ∧
      (dividend / divisor - 1).toInt = (dividend / divisor).toInt - 1 := by
  have lowest := dividend.le_toInt
  have highest := dividend.toInt_lt
  have lower := divisor.le_toInt
  have upper := divisor.toInt_lt
  have nonzero := toInt_ne_zero nonzero
  have quotient := toInt_quotient (fits_of_corrects corrects)
  obtain ⟨left, differ⟩ := corrects_iff.mp corrects
  constructor
  · have above := Int.tmod_nonneg (a := dividend.toInt) divisor.toInt
    have below (negative : dividend.toInt < 0) := tmod_nonpos negative divisor.toInt
    have small := natAbs_tmod_lt nonzero dividend.toInt
    rw [Int64.toInt_add, Int64.toInt_mod]
    exact Int.bmod_eq_of_le (by omega) (by omega)
  · have half := natAbs_tdiv_le_half nonzero left
    rw [Int64.toInt_sub, quotient, Int64.toInt_one]
    exact Int.bmod_eq_of_le (by omega) (by omega)

theorem floored_of_fits (nonzero : divisor ≠ 0)
    (fits : ¬(dividend = Int64.minValue ∧ divisor = -1)) :
    ∃ quotient remainder, floorDivMod? dividend divisor = some (quotient, remainder) ∧
      Floored dividend.toInt divisor.toInt quotient.toInt remainder.toInt := by
  by_cases corrects : Corrects dividend divisor
  · refine ⟨_, _, floorDivMod?_of_corrects nonzero corrects, ?_⟩
    obtain ⟨remainder, quotient⟩ := toInt_corrected nonzero corrects
    obtain ⟨left, differ⟩ := corrects_iff.mp corrects
    rw [remainder, quotient, toInt_quotient fits, Int64.toInt_mod]
    exact floored_corrected (toInt_ne_zero nonzero) left differ
  · refine ⟨_, _, floorDivMod?_of_not_corrects nonzero corrects, ?_⟩
    rw [toInt_quotient fits, Int64.toInt_mod]
    apply floored_tdiv (toInt_ne_zero nonzero)
    rw [corrects_iff] at corrects
    tauto

theorem Floored.words {quotient remainder : Int64}
    (floored : Floored dividend.toInt divisor.toInt quotient.toInt remainder.toInt) :
    quotient * divisor + remainder = dividend := by
  have words := congrArg Int64.ofInt floored.whole
  rwa [Int64.ofInt_add, Int64.ofInt_mul, Int64.ofInt_toInt, Int64.ofInt_toInt, Int64.ofInt_toInt,
    Int64.ofInt_toInt] at words

theorem floorDivMod?_least : floorDivMod? Int64.minValue (-1) = some (Int64.minValue, 0) := by
  decide

theorem divides_words (dividend : Int64) (nonzero : divisor ≠ 0) :
    ∃ quotient remainder, floorDivMod? dividend divisor = some (quotient, remainder) ∧
      quotient * divisor + remainder = dividend ∧
      (¬(dividend = Int64.minValue ∧ divisor = -1) →
        Floored dividend.toInt divisor.toInt quotient.toInt remainder.toInt) := by
  by_cases fits : dividend = Int64.minValue ∧ divisor = -1
  · obtain ⟨rfl, rfl⟩ := fits
    exact ⟨_, _, floorDivMod?_least, by decide, fun others => absurd ⟨rfl, rfl⟩ others⟩
  · obtain ⟨quotient, remainder, divides, floored⟩ := floored_of_fits nonzero fits
    exact ⟨quotient, remainder, divides, floored.words, fun _ => floored⟩

-- Division of words is rounded down wherever the quotient has a word, and no correction wraps
-- around. Every divisor but zero has a result, and the result gives the dividend again in the
-- arithmetic of words.
theorem floorDivMod_exact (dividend divisor : Int64) :
    (floorDivMod? dividend divisor = none ↔ divisor = 0) ∧
      (divisor ≠ 0 → ∃ quotient remainder,
        floorDivMod? dividend divisor = some (quotient, remainder) ∧
          quotient * divisor + remainder = dividend ∧
          (¬(dividend = Int64.minValue ∧ divisor = -1) →
            Floored dividend.toInt divisor.toInt quotient.toInt remainder.toInt ∧
              quotient.toInt = dividend.toInt.fdiv divisor.toInt ∧
              remainder.toInt = dividend.toInt.fmod divisor.toInt)) ∧
      (divisor ≠ 0 → Corrects dividend divisor →
        floorDivMod? dividend divisor =
            some (dividend / divisor - 1, dividend % divisor + divisor) ∧
          (dividend % divisor + divisor).toInt = (dividend % divisor).toInt + divisor.toInt ∧
          (dividend / divisor - 1).toInt = (dividend / divisor).toInt - 1) ∧
      floorDivMod? Int64.minValue (-1) = some (Int64.minValue, 0) := by
  refine ⟨⟨fun nothing => ?_, ?_⟩, fun nonzero => ?_, fun nonzero corrects => ?_,
    floorDivMod?_least⟩
  · by_contra nonzero
    obtain ⟨_, _, divides, _⟩ := divides_words dividend nonzero
    rw [nothing] at divides
    cases divides
  · rintro rfl
    rfl
  · obtain ⟨quotient, remainder, divides, words, floored⟩ := divides_words dividend nonzero
    exact ⟨quotient, remainder, divides, words, fun fits => ⟨floored fits, (floored fits).unique⟩⟩
  · exact ⟨floorDivMod?_of_corrects nonzero corrects, toInt_corrected nonzero corrects⟩

-- The least word by the greatest: what is left over goes from minus one to almost the divisor.
theorem floorDivMod_exact_extremes :
    Corrects Int64.minValue Int64.maxValue ∧
      floorDivMod? Int64.minValue Int64.maxValue = some (-2, Int64.maxValue - 1) ∧
      Floored Int64.minValue.toInt Int64.maxValue.toInt (-2) (Int64.maxValue.toInt - 1) ∧
      (Int64.minValue % Int64.maxValue + Int64.maxValue).toInt = -1 + Int64.maxValue.toInt := by
  obtain ⟨_, results, corrections, _⟩ := floorDivMod_exact Int64.minValue Int64.maxValue
  have corrects : Corrects Int64.minValue Int64.maxValue := by decide
  have known : floorDivMod? Int64.minValue Int64.maxValue = some (-2, Int64.maxValue - 1) := by
    decide
  obtain ⟨quotient, remainder, divides, _, floored⟩ := results (by decide)
  rw [known] at divides
  cases divides
  exact ⟨corrects, known, (floored (by decide)).1, (corrections (by decide) corrects).2.1⟩

end Words

end Hexagony.Division
