import Intcode.InstructionWord
import Mathlib.Tactic.NormNum

namespace Intcode

namespace Word

/-- The integers a word can be. -/
def clamp (value : Int) : Int :=
  max (-2 ^ 63) (min value (2 ^ 63 - 1))

theorem toInt_clampedAdd (left right : Word) :
    (clampedAdd left right).toInt = clamp (left.toInt + right.toInt) := by
  have lower := Int64.toInt_minValue
  have upper := Int64.toInt_maxValue
  unfold clampedAdd clamp Int64.ofIntClamp
  split
  · split
    · rw [Int64.toInt_ofIntLE]
      omega
    · rw [upper]
      omega
  · rw [lower]
    omega

theorem ofInt_clamp (left right : Word) :
    Int64.ofInt (clamp (left.toInt + right.toInt)) = clampedAdd left right := by
  rw [← toInt_clampedAdd, Int64.ofInt_toInt]

theorem address?_eq (word : Word) :
    word.address? = if word.toInt < 0 then none else some word.toInt.toNat := by
  simp only [address?, Int64.lt_iff_toInt_lt, Int64.toInt_zero, Int64.toNat_toInt]

end Word

namespace InstructionWord

theorem toInt_code (word : Word) : (code word).toInt = word.toInt.tmod 100 := by
  rw [code, Int64.toInt_mod]
  rfl

private theorem tdiv_eq_zero {value weight : Int} (lower : -weight < value) (upper : value < weight) :
    value.tdiv weight = 0 := by
  by_cases sign : 0 ≤ value
  · exact Int.tdiv_eq_zero_of_lt sign upper
  · have positive : (-value).tdiv weight = 0 := Int.tdiv_eq_zero_of_lt (by omega) (by omega)
    rwa [Int.neg_tdiv, Int.neg_eq_zero] at positive

theorem toInt_modeDigit (word : Word) (index : Nat) :
    (modeDigit word index).toInt = (word.toInt.tdiv (10 ^ (index + 2))).tmod 10 := by
  have lower := word.le_toInt
  have upper := word.toInt_lt
  have ten : (10 : Word).toInt = 10 := rfl
  unfold modeDigit
  split
  · rename_i room
    have bound : Nat.pow 10 (index + 2) ≤ 10 ^ 18 := Nat.pow_le_pow_right (by decide) (by omega)
    have weight : (Int64.ofNat (Nat.pow 10 (index + 2))).toInt = 10 ^ (index + 2) := by
      rw [Int64.toInt_ofNat_of_lt (Nat.lt_of_le_of_lt bound (by decide))]
      exact Int.natCast_pow 10 (index + 2)
    have positive : (0 : Int) < 10 ^ (index + 2) := Int.pow_pos (by decide)
    have notMinusOne : Int64.ofNat (Nat.pow 10 (index + 2)) ≠ -1 := by
      intro same
      rw [same] at weight
      have minusOne : (-1 : Word).toInt = -1 := rfl
      omega
    rw [Int64.toInt_mod, Int64.toInt_div_of_ne_right _ _ notMinusOne, weight, ten]
  · rename_i noRoom
    have bound : 10 ^ 19 ≤ 10 ^ (index + 2) := Nat.pow_le_pow_right (by decide) (by omega)
    have weight : (10 : Int) ^ 19 ≤ 10 ^ (index + 2) := by exact_mod_cast bound
    rw [tdiv_eq_zero (by omega) (by omega)]
    rfl

theorem mode_cases (word : Word) (index : Nat) :
    let digit := (word.toInt.tdiv (10 ^ (index + 2))).tmod 10
    (digit = 0 ∧ mode word index = .ok .position) ∨
    (digit = 1 ∧ mode word index = .ok .immediate) ∨
    (digit = 2 ∧ mode word index = .ok .relative) ∨
    (digit ≠ 0 ∧ digit ≠ 1 ∧ digit ≠ 2 ∧
      mode word index = .error (Int64.ofInt digit)) := by
  intro digit
  have known : (modeDigit word index).toInt = digit :=
    toInt_modeDigit word index
  have back : Int64.ofInt digit = modeDigit word index := by
    rw [← known, Int64.ofInt_toInt]
  simp only [mode, Mode.ofDigit?, ← Int64.toInt_inj, known, back]
  by_cases zero : digit = 0
  · exact .inl ⟨zero, by simp [zero]⟩
  · by_cases one : digit = 1
    · exact .inr (.inl ⟨one, by simp [one]⟩)
    · by_cases two : digit = 2
      · exact .inr (.inr (.inl ⟨two, by simp [two]⟩))
      · exact .inr (.inr (.inr ⟨zero, one, two, by simp [zero, one, two]⟩))

end InstructionWord

end Intcode
