import Intcode.Proofs.Machine.Advance
import Intcode.Proofs.Memory

namespace Intcode

/-- The program with as many zeros behind it. -/
def Program.padded (program : Program) (count : Nat) : Program where
  words := program.words ++ List.replicate count 0

/-- A fault of an instruction that the program ends before or within. -/
def FaultKind.endsProgram : FaultKind → Bool
  | pastEnd | incompleteInstruction => true
  | _ => false

def Outcome.endsProgram : Outcome → Bool
  | .ok _ => false
  | .error fault => fault.kind.endsProgram

/-- One memory reads like another and has `length` dense cells, at least as many as the other. -/
structure Memory.Pads (length : Nat) (short long : Memory) : Prop where
  get : ∀ address, long.get address = short.get address
  extent : long.extent = max short.extent length
  size : long.size = length
  shorter : short.size ≤ length
  proper : short.size ≤ short.extent

structure Machine.Pads (length : Nat) (short long : Machine) : Prop where
  memory : short.memory.Pads length long.memory
  pointer : long.pointer = short.pointer
  base : long.base = short.base
  phase : long.phase = short.phase

namespace Memory

variable {length : Nat} {short long : Memory}

theorem Pads.padded (program : Program) (count : Nat) :
    Pads (program.size + count) (ofProgram program) (ofProgram (program.padded count)) := by
  have size : (program.padded count).size = program.size + count := by
    simp [Program.padded, Program.size]
  refine ⟨fun address => ?_, ?_, ?_, ?_, ?_⟩
  · rw [get_ofProgram, get_ofProgram, Program.padded, List.getElem?_append]
    split <;> rename_i inside
    · rfl
    · rw [List.getElem?_eq_none (Nat.not_lt.mp inside), List.getElem?_replicate]
      split <;> rfl
  · rw [extent_ofProgram, extent_ofProgram, size]
    omega
  · rw [size_ofProgram, size]
  · rw [size_ofProgram]
    omega
  · apply Nat.le_of_eq
    rw [size_ofProgram, extent_ofProgram]

theorem Pads.inside (pads : short.Pads length long) {address : Nat}
    (inside : ¬ short.size ≤ address) : ¬ long.size ≤ address := by
  have shorter := pads.shorter
  rw [pads.size]
  omega

theorem Pads.set (pads : short.Pads length long) (address : Nat) (word : Word) :
    (short.set address word).Pads length (long.set address word) := by
  have properLong : long.size ≤ long.extent := by
    rw [pads.size, pads.extent]
    exact Nat.le_max_right _ _
  have proper := pads.proper
  refine ⟨fun other => ?_, ?_, ?_, ?_, ?_⟩
  · rw [get_set, get_set, pads.get]
  · rw [extent_set properLong, extent_set proper, pads.extent]
    omega
  · rw [size_set, pads.size]
  · rw [size_set]
    exact pads.shorter
  · rw [size_set, extent_set proper]
    omega

end Memory

namespace Instruction

variable {length : Nat} {short long : Memory} {base word raw : Word} {kind : ParamKind}
  {mode : Mode} {params : List ParamKind} {index pointer : Nat}

theorem fetch_pads (pads : short.Pads length long) :
    fetch long base mode raw = fetch short base mode raw := by
  simp only [fetch, pads.get]

theorem readOperand_pads (pads : short.Pads length long) :
    readOperand long base kind mode raw = readOperand short base kind mode raw := by
  simp only [readOperand, fetch_pads pads]

theorem readOperands_pads (pads : short.Pads length long)
    (within : (readOperands short base word params index pointer).2 ≠
      .error .incompleteInstruction) :
    readOperands long base word params index pointer =
      readOperands short base word params index pointer := by
  induction params generalizing index pointer with
  | nil => rfl
  | cons kind params ih =>
      by_cases ends : short.size ≤ pointer
      · refine absurd ?_ within
        rw [readOperands, if_pos ends]
      · rw [readOperands, if_neg ends] at within
        rw [readOperands, if_neg (pads.inside ends), readOperands, if_neg ends, pads.get]
        cases known : InstructionWord.mode word index with
        | error digit => rfl
        | ok mode =>
            simp only [known, readOperand_pads pads] at within ⊢
            cases read : readOperand short base kind mode (short.get pointer) with
            | error reason => rfl
            | ok operand =>
                simp only [read] at within ⊢
                rw [ih fun ended => within (by rw [ended]; rfl)]

theorem decode_pads (pads : short.Pads length long)
    (within : ∀ stop fault, decode short base pointer = (stop, .error fault) →
      fault.kind.endsProgram = false) :
    decode long base pointer = decode short base pointer := by
  by_cases ends : short.size ≤ pointer
  · have past := within pointer { kind := .pastEnd, address := pointer } (by rw [decode, if_pos ends])
    cases past
  · rw [decode, if_neg ends] at within
    rw [decode, if_neg (pads.inside ends), decode, if_neg ends, pads.get]
    dsimp only at within ⊢
    cases known : Opcode.ofCode? (InstructionWord.code (short.get pointer)) with
    | none => rfl
    | some opcode =>
        simp only [known] at within ⊢
        rw [readOperands_pads pads]
        intro ended
        cases answer : readOperands short base (short.get pointer) opcode.params 0 (pointer + 1) with
        | mk stop operands =>
            rw [answer] at ended within
            cases ended
            cases within stop { kind := .incompleteInstruction, address := pointer } rfl

end Instruction

namespace Machine

variable {length : Nat} {short long : Machine} {instruction : Instruction}

theorem Pads.start (program : Program) (count : Nat) :
    Pads (program.size + count) (.ofProgram program) (.ofProgram (program.padded count)) :=
  ⟨.padded program count, rfl, rfl, rfl⟩

theorem Pads.eq_with_memory (pads : short.Pads length long) :
    long = { short with memory := long.memory } := by
  obtain ⟨_, pointer, base, phase⟩ := pads
  cases long
  cases pointer
  cases base
  cases phase
  rfl

/-- To carry out a decoded instruction no cell is read. -/
theorem execute_pads (pads : short.Pads length long) :
    (long.execute instruction).2 = (short.execute instruction).2 ∧
      (short.execute instruction).1.Pads length (long.execute instruction).1 := by
  rw [pads.eq_with_memory]
  have memory := pads.memory
  generalize long.memory = cells at memory
  cases asked : instruction.opcode.effect? instruction.operands.values with
  | none =>
      simp only [execute, asked]
      exact ⟨rfl, memory, rfl, rfl, rfl⟩
  | some effect =>
      cases effect <;> simp only [execute, asked]
      case write word =>
        cases destinationOf instruction short.base with
        | ok address => exact ⟨rfl, memory.set address word, rfl, rfl, rfl⟩
        | error fault => exact ⟨rfl, memory, rfl, rfl, rfl⟩
      case jump target =>
        cases Word.address? target <;> exact ⟨rfl, memory, rfl, rfl, rfl⟩
      all_goals exact ⟨trivial, memory, rfl, rfl, rfl⟩

theorem step_pads (pads : short.Pads length long)
    (within : ∀ outcome, short.step.2 = some outcome → outcome.endsProgram = false) :
    long.step.2 = short.step.2 ∧ short.step.1.Pads length long.step.1 := by
  have decoded : Instruction.decode long.memory long.base long.pointer =
      Instruction.decode short.memory short.base short.pointer := by
    rw [pads.base, pads.pointer]
    apply Instruction.decode_pads pads.memory
    intro stop fault failed
    exact within (.error fault) (by rw [step, failed]; rfl)
  unfold step
  rw [decoded]
  obtain ⟨memory, pointer, base, phase⟩ := pads
  cases Instruction.decode short.memory short.base short.pointer with
  | mk stop answer =>
      cases answer with
      | error fault => exact ⟨rfl, memory, rfl, base, rfl⟩
      | ok instruction => exact execute_pads ⟨memory, rfl, base, phase⟩

/-- What two machines answer with the same fuel: nothing, the same, or the shorter program has
come to its end. -/
inductive Matches (length : Nat) :
    Option (Machine × Outcome) → Option (Machine × Outcome) → Prop
  | hang : Matches length none none
  | stop {short long : Machine} {outcome : Outcome} (pads : short.Pads length long) :
      Matches length (some (short, outcome)) (some (long, outcome))
  | ended {short : Machine} {outcome : Outcome} (ends : outcome.endsProgram = true)
      (other : Option (Machine × Outcome)) : Matches length (some (short, outcome)) other

theorem advance_pads (pads : short.Pads length long) (fuel : Nat) :
    Matches length (short.advance fuel) (long.advance fuel) := by
  induction fuel generalizing short long with
  | zero => exact .hang
  | succ fuel ih =>
      cases stepped : short.step with
      | mk after outcome =>
          cases followed : long.step with
          | mk otherAfter otherOutcome =>
              have agrees := step_pads pads
              rw [stepped, followed] at agrees
              simp only [advance, stepped, followed]
              cases outcome with
              | none =>
                  obtain ⟨rfl, pads⟩ := agrees fun _ reports => by cases reports
                  exact ih pads
              | some outcome =>
                  cases ends : outcome.endsProgram with
                  | true => exact .ended ends _
                  | false =>
                      obtain ⟨rfl, pads⟩ := agrees fun _ reports => by
                        cases reports
                        exact ends
                      exact .stop pads

theorem receive_pads (pads : short.Pads length long) (instruction : Instruction) (offer : Offer) :
    Matches length (some (short.receive instruction offer))
      (some (long.receive instruction offer)) := by
  rw [pads.eq_with_memory]
  have memory := pads.memory
  generalize long.memory = cells at memory
  cases offer with
  | disconnected | exhausted => exact .stop ⟨memory, rfl, rfl, rfl⟩
  | value word =>
      simp only [receive]
      cases destinationOf instruction short.base with
      | error fault => exact .stop ⟨memory, rfl, rfl, rfl⟩
      | ok address => exact .stop ⟨memory.set address word, rfl, rfl, rfl⟩

end Machine

end Intcode
