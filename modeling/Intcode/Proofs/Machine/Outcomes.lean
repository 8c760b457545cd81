import Intcode.Proofs.Instruction.Conditions
import Intcode.Proofs.Machine.Advance

namespace Intcode

def FaultKind.lacksInput : FaultKind → Bool
  | inputNotConnected | inputExhausted => true
  | _ => false

theorem Instruction.lacksInput_of_decode {memory : Memory} {base : Word} {pointer stop : Nat}
    {fault : Fault} (decoded : decode memory base pointer = (stop, .error fault)) :
    fault.kind.lacksInput = false := by
  obtain ⟨_, _, violated⟩ := exists_violates_of_decode decoded
  generalize fault.kind = kind at violated
  cases violated <;> rfl

/-- The phase in which a machine is left by an outcome that it comes to by itself. -/
inductive Outcome.Leaves : Outcome → Phase → Prop
  | aboutToInput (instruction : Instruction) : Leaves (.ok .aboutToInput) (.reading instruction)
  | aboutToOutput (word : Word) : Leaves (.ok .aboutToOutput) (.writing word)
  | halted : Leaves (.ok .halted) .halted
  | faulted {fault : Fault} (other : fault.kind.lacksInput = false) :
      Leaves (.error fault) (.faulted fault)

theorem Outcome.Leaves.lacksInput {fault : Fault} {phase : Phase}
    (leaves : Outcome.Leaves (.error fault) phase) : fault.kind.lacksInput = false := by
  cases leaves with
  | faulted other => exact other

theorem Outcome.Leaves.phase_of_halted {phase : Phase}
    (leaves : Outcome.Leaves (.ok .halted) phase) : phase = .halted := by
  cases leaves
  rfl

namespace Machine

variable {machine after : Machine} {instruction : Instruction} {outcome : Outcome}
  {reason : Suspension} {fault : Fault} {word : Word}

theorem lacksInput_of_destinationOf {base : Word}
    (failed : destinationOf instruction base = .error fault) : fault.kind.lacksInput = false := by
  unfold destinationOf at failed
  split at failed
  · cases failed
    rfl
  · split at failed <;> cases failed
    rfl

theorem execute_leaves (executed : machine.execute instruction = (after, some outcome)) :
    outcome.Leaves after.phase := by
  cases asked : instruction.opcode.effect? instruction.operands.values with
  | none =>
      simp only [execute, asked, fail, Prod.map, id] at executed
      cases executed
      exact .faulted rfl
  | some effect =>
      cases effect <;> simp only [execute, asked, fail, Prod.map, id] at executed
      case write =>
        split at executed <;> rename_i resolved <;> cases executed
        exact .faulted (lacksInput_of_destinationOf resolved)
      case input =>
        cases executed
        exact .aboutToInput instruction
      case output word =>
        cases executed
        exact .aboutToOutput word
      case jump =>
        split at executed <;> cases executed
        exact .faulted rfl
      case adjustBase => cases executed
      case halt =>
        cases executed
        exact .halted
      case idle => cases executed

theorem step_leaves (stepped : machine.step = (after, some outcome)) :
    outcome.Leaves after.phase := by
  unfold step at stepped
  split at stepped <;> rename_i decoded
  · simp only [fail, Prod.map, id] at stepped
    cases stepped
    exact .faulted (Instruction.lacksInput_of_decode decoded)
  · exact execute_leaves stepped

theorem advance_leaves {fuel : Nat} (advanced : machine.advance fuel = some (after, outcome)) :
    outcome.Leaves after.phase := by
  obtain ⟨last, stepped⟩ := exists_last_step advanced
  exact step_leaves stepped

/-- Either a value finds its cell and the machine runs on, or the instruction fails and nothing
but the phase has changed. -/
theorem receive_cases {offer : Offer} (received : machine.receive instruction offer = (after, outcome)) :
    (∃ word address, offer = .value word ∧ destinationOf instruction machine.base = .ok address ∧
      after = { machine with memory := machine.memory.set address word, phase := .running } ∧
      outcome = .ok .afterInput) ∨
    (∃ fault, after = { machine with phase := .faulted fault } ∧ outcome = .error fault) := by
  cases offer with
  | disconnected | exhausted =>
      simp only [receive, fail] at received
      cases received
      exact .inr ⟨_, rfl, rfl⟩
  | value word =>
      simp only [receive, fail] at received
      split at received <;> rename_i resolved <;> cases received
      · exact .inr ⟨_, rfl, rfl⟩
      · exact .inl ⟨_, _, rfl, resolved, rfl, rfl⟩

theorem receive_value_ok (received : machine.receive instruction (.value word) = (after, .ok reason)) :
    after.phase = .running ∧ reason = .afterInput := by
  simp only [receive, fail] at received
  split at received <;> cases received
  exact ⟨rfl, rfl⟩

theorem receive_value_error
    (received : machine.receive instruction (.value word) = (after, .error fault)) :
    fault.kind.lacksInput = false := by
  simp only [receive, fail] at received
  split at received <;> rename_i resolved <;> cases received
  exact lacksInput_of_destinationOf resolved

end Machine

end Intcode
