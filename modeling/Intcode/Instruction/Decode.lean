import Intcode.Fault
import Intcode.Instruction
import Intcode.Memory

namespace Intcode

/-! # Decoding

An instruction is read from the dense cells of memory: the instruction word at
the pointer and one cell for each parameter. Values are fetched right away, a
destination is kept as it stands. The pointer moves past every cell that was
read, also when decoding fails, so it says how far decoding came.
-/

namespace Instruction

inductive Operand where
  | value (word : Word)
  | destination (destination : Destination)
deriving DecidableEq, Repr

namespace Operand

/-- Puts an operand in front of the operands after it. -/
def before (operand : Operand) (rest : Operands) : Operands :=
  match operand with
  | value word => { rest with values := word :: rest.values }
  | destination place => { rest with destination := some place }

end Operand

/-- Fetches the value a parameter word stands for. -/
def fetch (memory : Memory) (base : Word) (mode : Mode) (raw : Word) : Except FaultKind Word :=
  match mode with
  | .immediate => .ok raw
  | .position | .relative =>
      match resolveAddress mode raw base with
      | .ok address => .ok (memory.get address)
      | .error address => .error (.negativeAddress address)

/-- Reads the operand in a parameter word. Nothing can be written to an
immediate operand. -/
def readOperand (memory : Memory) (base : Word) (kind : ParamKind) (mode : Mode) (raw : Word) :
    Except FaultKind Operand :=
  match kind with
  | .value => (fetch memory base mode raw).map .value
  | .destination =>
      if mode = .immediate then .error (.invalidMode mode.digit)
      else .ok (.destination { mode, raw })

/-- Reads the operands for parameters from number `index` on, the first of which
stands at `pointer`. -/
def readOperands (memory : Memory) (base word : Word) :
    List ParamKind → (index pointer : Nat) → Nat × Except FaultKind Operands
  | [], _, pointer => (pointer, .ok {})
  | kind :: rest, index, pointer =>
      if memory.size ≤ pointer then (pointer, .error .incompleteInstruction)
      else
        match InstructionWord.mode word index with
        | .error digit => (pointer + 1, .error (.invalidMode digit))
        | .ok mode =>
            match readOperand memory base kind mode (memory.get pointer) with
            | .error fault => (pointer + 1, .error fault)
            | .ok operand =>
                let (pointer, operands) :=
                  readOperands memory base word rest (index + 1) (pointer + 1)
                (pointer, operands.map operand.before)

/-- Reads the instruction at `pointer`. The first answer is the pointer after
the cells that were read. -/
def decode (memory : Memory) (base : Word) (pointer : Nat) : Nat × Except Fault Instruction :=
  if memory.size ≤ pointer then (pointer, .error { kind := .pastEnd, address := pointer })
  else
    let word := memory.get pointer
    match Opcode.ofCode? (InstructionWord.code word) with
    | none => (pointer + 1, .error { kind := .invalidOpcode word, address := pointer })
    | some opcode =>
        match readOperands memory base word opcode.params 0 (pointer + 1) with
        | (stop, .error kind) => (stop, .error { kind, address := pointer })
        | (stop, .ok operands) => (stop, .ok { opcode, address := pointer, operands })

end Instruction

end Intcode
