import Intcode.Proofs.Opcode
import Intcode.Proofs.Word

namespace Intcode.InstructionWord

/-- The decimal number with a one for every flag that is set, the first flag lowest. -/
def number : List Bool → Nat
  | [] => 0
  | flag :: rest => flag.toNat + 10 * number rest

theorem number_lt (flags : List Bool) : 9 * number flags < 10 ^ flags.length := by
  induction flags with
  | nil => decide
  | cons flag rest ih =>
      have bit := flag.toNat_le
      simp only [number, List.length_cons, Nat.pow_succ]
      omega

theorem marks_eq (worth : Nat) (flags : List Bool) :
    marks (Int64.ofNat worth) flags = Int64.ofNat (worth * number flags) := by
  induction flags generalizing worth with
  | nil => rfl
  | cons flag rest ih =>
      have next := ih (worth * 10)
      rw [Int64.ofNat_mul] at next
      have split : worth * number (flag :: rest) =
          worth * flag.toNat + worth * 10 * number rest := by
        rw [number, Nat.mul_add, Nat.mul_assoc]
      rw [marks, split, Int64.ofNat_add, ← next]
      cases flag <;> simp

variable {opcode : Opcode} {flags : List Bool}

theorem toNat_code (opcode : Opcode) :
    ∃ code : Nat, opcode.code = Int64.ofNat code ∧ opcode.code.toInt = code ∧ code < 100 := by
  cases opcode <;> exact ⟨_, rfl, rfl, by decide⟩

/-- There is room for 17 flags. -/
theorem toInt_encode (opcode : Opcode) (room : flags.length ≤ 17) :
    ∃ code : Nat, opcode.code.toInt = code ∧ code < 100 ∧
      (encode opcode flags).toInt = (code + 100 * number flags : Nat) := by
  obtain ⟨code, same, value, small⟩ := toNat_code opcode
  refine ⟨code, value, small, ?_⟩
  have bound := number_lt flags
  have most : 10 ^ flags.length ≤ 10 ^ 17 := Nat.pow_le_pow_right (by decide) room
  have hundred := marks_eq 100 flags
  rw [encode, same, show (100 : Word) = Int64.ofNat 100 from rfl, hundred, ← Int64.ofNat_add,
    Int64.toInt_ofNat_of_lt (by omega)]

theorem code_encode (room : flags.length ≤ 17) : code (encode opcode flags) = opcode.code := by
  obtain ⟨low, value, small, encoded⟩ := toInt_encode opcode room
  apply Int64.toInt_inj.mp
  rw [toInt_code, encoded, value, Int.tmod_eq_emod_of_nonneg (Int.natCast_nonneg _)]
  omega

theorem number_digit (flags : List Bool) (index : Nat) :
    number flags / 10 ^ index % 10 = if flags[index]? = some true then 1 else 0 := by
  induction flags generalizing index with
  | nil => simp [number]
  | cons first rest ih =>
      have bit := first.toNat_le
      cases index with
      | zero =>
          have lowest : number (first :: rest) / 10 ^ 0 % 10 = first.toNat := by
            simp only [number, Nat.pow_zero, Nat.div_one]
            omega
          rw [lowest, List.getElem?_cons_zero]
          cases first <;> rfl
      | succ index =>
          have shifted : number (first :: rest) / 10 = number rest := by
            simp only [number]
            omega
          rw [List.getElem?_cons_succ, Nat.pow_succ', ← Nat.div_div_eq_div_mul, shifted, ih]

/-- A parameter that no flag was given for is a position. -/
theorem mode_encode (room : flags.length ≤ 17) (index : Nat) :
    mode (encode opcode flags) index =
      .ok (if flags[index]? = some true then .immediate else .position) := by
  obtain ⟨low, _, small, encoded⟩ := toInt_encode opcode room
  have hundreds : (low + 100 * number flags) / 10 ^ (index + 2) = number flags / 10 ^ index := by
    have whole : (low + 100 * number flags) / 10 ^ 2 = number flags := by omega
    rw [Nat.add_comm index, Nat.pow_add, ← Nat.div_div_eq_div_mul, whole]
  have digit : ((encode opcode flags).toInt.tdiv (10 ^ (index + 2))).tmod 10 =
      (if flags[index]? = some true then 1 else 0 : Nat) := by
    rw [encoded]
    have read := number_digit flags index
    rw [← hundreds] at read
    exact_mod_cast congrArg (Int.ofNat) read
  rcases mode_cases (encode opcode flags) index with
    ⟨zero, known⟩ | ⟨one, known⟩ | ⟨two, _⟩ | ⟨notZero, notOne, _⟩
  all_goals
    by_cases isSet : flags[index]? = some true <;> simp_all

end Intcode.InstructionWord
