import Intcode.Proofs.Instruction.Conditions

namespace Intcode

/-- There is one value for each value parameter, and a destination where one is asked for. -/
structure Operands.Supplies (operands : Operands) (kinds : List ParamKind) : Prop where
  values : operands.values.length = kinds.count .value
  destination : operands.destination.isSome ↔ .destination ∈ kinds
  assignable : ∀ destination, operands.destination = some destination →
    destination.mode ≠ .immediate

/-- Faults that only an instruction without its operands has. -/
def FaultKind.lacksOperand : FaultKind → Bool
  | missingDestination | missingValue => true
  | _ => false

/-- Is there a word that goes to the destination, now or when it has come in? -/
def Effect.writes : Effect → Bool
  | write _ | input => true
  | output _ | jump _ | adjustBase _ | halt | idle => false

namespace Opcode

variable {opcode : Opcode} {values : List Word} {effect : Effect}

/-- The effect takes one value for each value parameter. -/
theorem isSome_effect?_iff :
    (opcode.effect? values).isSome ↔ opcode.params.count .value ≤ values.length := by
  cases opcode <;> rcases values with _ | ⟨a, _ | ⟨b, rest⟩⟩ <;> simp [effect?, params]

theorem destination_mem_params (asked : opcode.effect? values = some effect)
    (writes : effect.writes = true) : .destination ∈ opcode.params := by
  unfold effect? at asked
  split at asked <;> try split at asked
  all_goals cases asked <;> first | decide | cases writes

end Opcode

namespace Instruction

variable {memory : Memory} {base word : Word} {pointer index stop : Nat} {kind : ParamKind}
  {kinds : List ParamKind} {operand : Operand} {operands : Operands} {instruction : Instruction}
  {fault : Fault}

theorem readParam_cases (read : readParam memory base word kind index pointer = .ok operand) :
    (kind = .value ∧ ∃ word, operand = .value word) ∨
    (kind = .destination ∧ ∃ destination, operand = .destination destination ∧
      destination.mode ≠ .immediate) := by
  unfold readParam at read
  split at read
  · cases read
  · split at read
    · cases read
    · cases kind with
      | value =>
          rw [readOperand] at read
          cases fetched : fetch memory base _ (memory.get pointer) with
          | error fault =>
              rw [fetched] at read
              cases read
          | ok word =>
              rw [fetched] at read
              cases read
              exact .inl ⟨rfl, word, rfl⟩
      | destination =>
          simp only [readOperand] at read
          split at read <;> rename_i immediate <;> cases read
          exact .inr ⟨rfl, _, rfl, immediate⟩

theorem readOperands_supplies
    (read : readOperands memory base word kinds index pointer = (stop, .ok operands)) :
    operands.Supplies kinds := by
  induction kinds generalizing index pointer operands with
  | nil =>
      cases read
      exact ⟨rfl, by simp, by simp⟩
  | cons kind kinds ih =>
      obtain ⟨operand, others, first, later, rfl⟩ := readOperands_cons_eq_ok_iff.mp read
      obtain ⟨values, destination, assignable⟩ := ih later
      rcases readParam_cases first with ⟨rfl, word, rfl⟩ | ⟨rfl, place, rfl, mode⟩
      · exact ⟨by simp [Operand.before, values], by simp [Operand.before, destination], assignable⟩
      · refine ⟨by simp [Operand.before, values], by simp [Operand.before], ?_⟩
        rintro _ ⟨⟩
        exact mode

theorem decode_supplies (decoded : decode memory base pointer = (stop, .ok instruction)) :
    instruction.operands.Supplies instruction.opcode.params :=
  readOperands_supplies (decode_eq_ok_iff.mp decoded).2.2.2

theorem lacksOperand_of_decode (decoded : decode memory base pointer = (stop, .error fault)) :
    fault.kind.lacksOperand = false := by
  obtain ⟨_, _, violated⟩ := exists_violates_of_decode decoded
  generalize fault.kind = kind at violated
  cases violated <;> rfl

end Instruction

end Intcode
