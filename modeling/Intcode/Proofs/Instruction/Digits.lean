import Intcode.Proofs.Instruction.Conditions
import Mathlib.Algebra.BigOperators.Group.Finset.Basic

namespace Intcode.InstructionWord

theorem lowest_add_digit (word : Word) (index : Nat) :
    lowest word (index + 3) = lowest word (index + 2) + digit word index * 10 ^ (index + 2) := by
  have divides : (10 : Int) ^ (index + 2) ∣ 10 ^ (index + 3) := pow_dvd_pow 10 (by omega)
  have below : (lowest word (index + 3)).tmod (10 ^ (index + 2)) = lowest word (index + 2) :=
    Int.tmod_tmod_of_dvd word.toInt divides
  have above : (lowest word (index + 3)).tdiv (10 ^ (index + 2)) = digit word index := by
    rw [digit_eq_tdiv, show 2 + (index + 1) = index + 3 by omega]
  have whole := Int.tmod_add_tdiv_mul (lowest word (index + 3)) (10 ^ (index + 2))
  rw [below, above] at whole
  exact whole.symm

/-- The lowest digits are the code and the digits above it. -/
theorem lowest_eq_sum (word : Word) (count : Nat) :
    lowest word (count + 2) =
      (code word).toInt + ∑ index ∈ Finset.range count, digit word index * 10 ^ (index + 2) := by
  induction count with
  | zero =>
      rw [Finset.sum_range_zero, add_zero, toInt_code]
      rfl
  | succ count ih => rw [Finset.sum_range_succ, ← add_assoc, ← ih, ← lowest_add_digit]

/-- No word has more than 19 digits. -/
theorem lowest_eq_toInt (word : Word) : lowest word 19 = word.toInt := by
  have lower := word.le_toInt
  have upper := word.toInt_lt
  have small : word.toInt.natAbs < ((10 : Int) ^ 19).natAbs := by omega
  have quotient : (word.toInt.tdiv (10 ^ 19)).sign = 0 := by
    rw [Int.sign_tdiv, if_pos small]
  rw [lowest, Int.tmod_def, Int.sign_eq_zero_iff_zero.mp quotient, mul_zero, sub_zero]

theorem sign_digit (word : Word) (index : Nat) :
    digit word index = 0 ∨ (digit word index).sign = word.toInt.sign := by
  have worth : ((10 : Int) ^ (index + 2)).sign = 1 := Int.sign_eq_one_iff_pos.mpr (by positivity)
  rw [← Int.sign_eq_zero_iff_zero, digit, Int.sign_tmod, Int.sign_tdiv, worth, mul_one]
  split
  · exact .inl rfl
  · split
    · exact .inl rfl
    · exact .inr rfl

theorem maxValue_lt_worth_iff (index : Nat) :
    Int64.maxValue.toInt < 10 ^ (index + 2) ↔ 17 ≤ index := by
  rw [Int64.toInt_maxValue]
  constructor
  · intro large
    by_contra few
    have most : (10 : Int) ^ (index + 2) ≤ 10 ^ 18 := pow_le_pow_right₀ (by decide) (by omega)
    omega
  · intro many
    have least : (10 : Int) ^ 19 ≤ 10 ^ (index + 2) := pow_le_pow_right₀ (by decide) (by omega)
    omega

/-- Every digit is what division toward zero makes of the word, also where the worth of its place
is no word any more, and it has the sign of the word. The code and 17 digits make up the word. -/
theorem digits_make_up_word (word : Word) :
    (∀ index, (modeDigit word index).toInt = (word.toInt.tdiv (10 ^ (index + 2))).tmod 10) ∧
    (∀ index, Int64.maxValue.toInt < 10 ^ (index + 2) ↔ 17 ≤ index) ∧
    (∀ index, 17 ≤ index → modeDigit word index = 0) ∧
    (∀ index, (modeDigit word index).toInt = 0 ∨
      (modeDigit word index).toInt.sign = word.toInt.sign) ∧
    word.toInt = (code word).toInt +
      ∑ index ∈ Finset.range 17, (modeDigit word index).toInt * 10 ^ (index + 2) := by
  refine ⟨toInt_modeDigit word, maxValue_lt_worth_iff, fun index many => ?_, fun index => ?_, ?_⟩
  · rw [modeDigit, if_neg (Nat.not_lt.mpr many)]
  · rw [toInt_modeDigit]
    exact sign_digit word index
  · simp only [toInt_modeDigit]
    exact (lowest_eq_toInt word).symm.trans (lowest_eq_sum word 17)

example : modeDigit Int64.minValue 16 = -9 ∧ modeDigit Int64.minValue 17 = 0 := by decide

end Intcode.InstructionWord
