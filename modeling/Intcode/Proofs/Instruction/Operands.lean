import Intcode.Machine
import Intcode.Proofs.Word

namespace Intcode

/-- The integer a parameter word means in a mode other than immediate. -/
def placeOf (mode : Mode) (raw base : Word) : Int :=
  if mode = .relative then Word.clamp (base.toInt + raw.toInt) else raw.toInt

theorem resolveAddress_eq (mode : Mode) (raw base : Word) :
    resolveAddress mode raw base =
      if placeOf mode raw base < 0 then .error (Int64.ofInt (placeOf mode raw base))
      else .ok (placeOf mode raw base).toNat := by
  by_cases relative : mode = .relative
  · simp only [resolveAddress, placeOf, relative, if_true, Word.address?_eq,
      Word.toInt_clampedAdd, Word.ofInt_clamp]
    split <;> rename_i address <;> split at address <;> simp_all
  · simp only [resolveAddress, placeOf, relative, if_false, Word.address?_eq, Int64.ofInt_toInt]
    split <;> rename_i address <;> split at address <;> simp_all

namespace Instruction

variable {memory : Memory} {base word : Word} {kind : ParamKind} {rest : List ParamKind}
  {index pointer : Nat}

theorem fetch_indirect {mode : Mode} {raw : Word} (indirect : mode ≠ .immediate) :
    fetch memory base mode raw =
      if placeOf mode raw base < 0 then
        .error (.negativeAddress (Int64.ofInt (placeOf mode raw base)))
      else .ok (memory.get (placeOf mode raw base).toNat) := by
  cases mode with
  | immediate => contradiction
  | position | relative =>
      simp only [fetch, resolveAddress_eq]
      split <;> rename_i resolved <;> split at resolved <;> cases resolved <;>
        simp only [*, if_true, if_false]

/-- What the parameter at an index answers, read by itself. -/
def readParam (memory : Memory) (base word : Word) (kind : ParamKind) (index pointer : Nat) :
    Except FaultKind Operand :=
  if memory.size ≤ pointer then .error .incompleteInstruction
  else
    match InstructionWord.mode word index with
    | .error digit => .error (.invalidMode digit)
    | .ok mode => readOperand memory base kind mode (memory.get pointer)

/-- A cell that is read counts, also when what it holds is wrong. -/
theorem readOperands_failed {fault : FaultKind}
    (read : readParam memory base word kind index pointer = .error fault) :
    readOperands memory base word (kind :: rest) index pointer =
      (if memory.size ≤ pointer then pointer else pointer + 1, .error fault) := by
  unfold readParam at read
  rw [readOperands]
  by_cases ends : memory.size ≤ pointer
  · simp only [ends, if_true] at read ⊢
    cases read
    rfl
  · simp only [ends, if_false] at read ⊢
    cases known : InstructionWord.mode word index with
    | error digit =>
        rw [known] at read
        cases read
        rfl
    | ok mode =>
        simp only [known] at read ⊢
        rw [read]

theorem readOperands_error {fault : FaultKind}
    (read : readParam memory base word kind index pointer = .error fault) :
    (readOperands memory base word (kind :: rest) index pointer).2 = .error fault := by
  rw [readOperands_failed read]

theorem readOperands_ok {operand : Operand}
    (read : readParam memory base word kind index pointer = .ok operand) :
    readOperands memory base word (kind :: rest) index pointer =
      ((readOperands memory base word rest (index + 1) (pointer + 1)).1,
        (readOperands memory base word rest (index + 1) (pointer + 1)).2.map operand.before) := by
  unfold readParam at read
  rw [readOperands]
  by_cases ends : memory.size ≤ pointer
  · rw [if_pos ends] at read
    contradiction
  · rw [if_neg ends] at read ⊢
    cases known : InstructionWord.mode word index with
    | error digit =>
        rw [known] at read
        contradiction
    | ok mode =>
        simp only [known] at read ⊢
        rw [read]

theorem readOperands_nil : readOperands memory base word [] index pointer = (pointer, .ok {}) := rfl

section Decode

variable {opcode : Opcode} {stop : Nat}

theorem decode_pastEnd (past : memory.size ≤ pointer) :
    decode memory base pointer = (pointer, .error { kind := .pastEnd, address := pointer }) := by
  rw [decode, if_pos past]

theorem decode_unknown (inside : pointer < memory.size)
    (unknown : Opcode.ofCode? (InstructionWord.code (memory.get pointer)) = none) :
    decode memory base pointer =
      (pointer + 1, .error { kind := .invalidOpcode (memory.get pointer), address := pointer }) := by
  simp only [decode, Nat.not_le.mpr inside, if_false, unknown]

theorem decode_error {fault : FaultKind} (inside : pointer < memory.size)
    (known : Opcode.ofCode? (InstructionWord.code (memory.get pointer)) = some opcode)
    (read : (readOperands memory base (memory.get pointer) opcode.params 0 (pointer + 1)).2 =
      .error fault) :
    ∃ stop, decode memory base pointer =
      (stop, .error { kind := fault, address := pointer }) := by
  refine ⟨(readOperands memory base (memory.get pointer) opcode.params 0 (pointer + 1)).1, ?_⟩
  simp only [decode, Nat.not_le.mpr inside, if_false, known]
  split <;> rename_i answer <;> rw [answer] at read <;> cases read
  simp only [answer]

theorem decode_ok {operands : Operands} (inside : pointer < memory.size)
    (known : Opcode.ofCode? (InstructionWord.code (memory.get pointer)) = some opcode)
    (read : readOperands memory base (memory.get pointer) opcode.params 0 (pointer + 1) =
      (stop, .ok operands)) :
    decode memory base pointer = (stop, .ok { opcode, address := pointer, operands }) := by
  simp only [decode, Nat.not_le.mpr inside, if_false, known, read]

end Decode

end Instruction

namespace Machine

variable {machine : Machine} {instruction : Instruction} {stop : Nat}

theorem step_error {fault : Fault}
    (decoded : Instruction.decode machine.memory machine.base machine.pointer =
      (stop, .error fault)) :
    machine.step =
      ({ machine with pointer := stop, phase := .faulted fault }, some (.error fault)) := by
  simp only [step, decoded, fail, Prod.map, id]

theorem step_ok
    (decoded : Instruction.decode machine.memory machine.base machine.pointer =
      (stop, .ok instruction)) :
    machine.step = Machine.execute { machine with pointer := stop } instruction := by
  simp only [step, decoded]

theorem destinationOf_eq {destination : Destination} {base : Word}
    (has : instruction.operands.destination = some destination) :
    destinationOf instruction base =
      if placeOf destination.mode destination.raw base < 0 then
        .error { kind := .negativeAddress
                  (Int64.ofInt (placeOf destination.mode destination.raw base)),
                 address := instruction.address }
      else .ok (placeOf destination.mode destination.raw base).toNat := by
  simp only [destinationOf, has, Destination.resolve, resolveAddress_eq]
  split <;> rename_i resolved <;> split at resolved <;> cases resolved <;>
    simp only [*, if_true, if_false]

theorem receive_negative {machine : Machine} {destination : Destination} {word : Word}
    (has : instruction.operands.destination = some destination)
    (negative : placeOf destination.mode destination.raw machine.base < 0) :
    machine.receive instruction (.value word) =
      machine.fail { kind := .negativeAddress
                      (Int64.ofInt (placeOf destination.mode destination.raw machine.base)),
                     address := instruction.address } := by
  simp only [receive, destinationOf_eq has, negative, if_true]

theorem receive_inside {machine : Machine} {destination : Destination} {word : Word}
    (has : instruction.operands.destination = some destination)
    (inside : ¬ placeOf destination.mode destination.raw machine.base < 0) :
    machine.receive instruction (.value word) =
      ({ machine with
          memory := machine.memory.set
            (placeOf destination.mode destination.raw machine.base).toNat word,
          phase := .running }, .ok .afterInput) := by
  simp only [receive, destinationOf_eq has, inside, if_false]

end Machine

end Intcode
