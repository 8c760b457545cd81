import Intcode.Proofs.Instruction.Digits
import Intcode.Proofs.Instruction.Encoding
import Mathlib.Algebra.BigOperators.Ring.Finset

namespace Intcode.InstructionWord

/-- What the flag at an index adds to an encoded word, as an integer. -/
def addend (flags : List Bool) (index : Nat) : Int :=
  if flags[index]? = some true then 10 ^ (index + 2) else 0

variable {word other : Word} {flags : List Bool} {index : Nat}

theorem addend_cons_succ (flag : Bool) (rest : List Bool) (index : Nat) :
    addend (flag :: rest) (index + 1) = 10 * addend rest index := by
  simp only [addend, List.getElem?_cons_succ, mul_ite, mul_zero]
  rw [show index + 1 + 2 = index + 2 + 1 by omega, pow_succ']

theorem sum_addend (flags : List Bool) (count : Nat) :
    ∑ index ∈ Finset.range count, addend flags index = 100 * number (flags.take count) := by
  induction flags generalizing count with
  | nil => simp [addend, number]
  | cons flag rest ih =>
      cases count with
      | zero => rfl
      | succ count =>
          have lowest : addend (flag :: rest) 0 = 100 * flag.toNat := by
            cases flag <;> rfl
          simp only [Finset.sum_range_succ', addend_cons_succ, ← Finset.mul_sum, ih, lowest,
            List.take_succ_cons, number]
          omega

/-- The words that arise flag by flag are exact sums: none of the additions wraps. -/
theorem toInt_encode_take (opcode : Opcode) (room : flags.length ≤ 17) (count : Nat) :
    (encode opcode (flags.take count)).toInt =
      opcode.code.toInt + ∑ index ∈ Finset.range count, addend flags index := by
  have few : (flags.take count).length ≤ 17 := by
    rw [List.length_take]
    omega
  obtain ⟨low, value, _, encoded⟩ := toInt_encode opcode few
  rw [encoded, value, sum_addend]
  rfl

theorem modeDigit_of_mode {known : Mode} (found : mode word index = .ok known) :
    modeDigit word index = known.digit := by
  have value := toInt_modeDigit word index
  rcases mode_cases word index with
    ⟨digit, same⟩ | ⟨digit, same⟩ | ⟨digit, same⟩ | ⟨_, _, _, failed⟩
  case inr.inr.inr => cases found.symm.trans failed
  all_goals
    cases found.symm.trans same
    exact Int64.toInt_inj.mp (value.trans digit)

/-- There is only one word with given digits. -/
theorem eq_of_digits (codes : code word = code other)
    (digits : ∀ index, modeDigit word index = modeDigit other index) : word = other := by
  have same (index : Nat) : digit word index = digit other index := by
    rw [digit, ← toInt_modeDigit, digits, toInt_modeDigit, digit]
  apply Int64.toInt_inj.mp
  rw [← lowest_eq_toInt, ← lowest_eq_toInt, lowest_eq_sum word 17, lowest_eq_sum other 17, codes]
  simp only [same]

/-- An encoded word is the exact sum of the code and what its flags add, and no sum on the way
there is more than a word can be. It reads back as its opcode and its flags, with positions at all
indices beyond them, and no other word does. -/
theorem encoding_and_reading_are_inverse (opcode : Opcode) (room : flags.length ≤ 17) :
    (∀ count, opcode.code.toInt + ∑ index ∈ Finset.range count, addend flags index ≤
      Int64.maxValue.toInt) ∧
    (encode opcode flags).toInt =
      opcode.code.toInt + ∑ index ∈ Finset.range flags.length, addend flags index ∧
    Opcode.ofCode? (code (encode opcode flags)) = some opcode ∧
    (∀ index, mode (encode opcode flags) index =
      .ok (if flags[index]? = some true then .immediate else .position)) ∧
    ∀ word, Opcode.ofCode? (code word) = some opcode →
      (∀ index, mode word index =
        .ok (if flags[index]? = some true then .immediate else .position)) →
      word = encode opcode flags := by
  have known : Opcode.ofCode? (code (encode opcode flags)) = some opcode := by
    rw [code_encode room, Opcode.ofCode?_code]
  refine ⟨fun count => ?_, ?_, known, mode_encode room, fun word names reads => ?_⟩
  · rw [← toInt_encode_take opcode room count]
    exact Int64.toInt_le (encode opcode (flags.take count))
  · rw [← toInt_encode_take opcode room, List.take_length]
  · apply eq_of_digits
    · rw [← Opcode.ofCode?_eq_some_iff.mp names, code_encode room]
    · intro index
      rw [modeDigit_of_mode (reads index), modeDigit_of_mode (mode_encode room index)]

/-- Flags for all the places there are, one of them not set. -/
theorem fullest_word_reads_back :
    let flags := List.replicate 8 true ++ false :: List.replicate 8 true
    flags.length ≤ 17 ∧
    (encode .halt flags).toInt = 1111111101111111199 ∧
    Opcode.ofCode? (code (encode .halt flags)) = some .halt ∧
    (mode (encode .halt flags) 8 = .ok .position ∧
      mode (encode .halt flags) 16 = .ok .immediate ∧
      mode (encode .halt flags) 17 = .ok .position) ∧
    ∀ word, Opcode.ofCode? (code word) = some .halt →
      (∀ index, mode word index =
        .ok (if flags[index]? = some true then .immediate else .position)) →
      word = encode .halt flags := by
  intro flags
  have room : flags.length ≤ 17 := by decide
  obtain ⟨_, exactly, known, modes, only⟩ := encoding_and_reading_are_inverse .halt room
  exact ⟨room, exactly.trans (by decide), known, ⟨modes 8, modes 16, modes 17⟩, only⟩

example : mode (encode .add (List.replicate 17 false ++ [true])) 17 = .ok .position := by decide

end Intcode.InstructionWord
