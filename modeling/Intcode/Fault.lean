import Intcode.Word.Decimal

namespace Intcode

inductive FaultKind where
  /-- No opcode has the code of this instruction word. -/
  | invalidOpcode (word : Word)
  /-- A mode digit is none of 0, 1 and 2, or a destination is immediate. -/
  | invalidMode (digit : Word)
  | inputNotConnected
  | inputExhausted
  /-- The program ends before the last parameter of the instruction. -/
  | incompleteInstruction
  /-- The instruction pointer stands behind the program. -/
  | pastEnd
  | negativeAddress (address : Word)
  /-- A result has no place to go to. A decoded instruction never lacks one. -/
  | missingDestination
  /-- An opcode has fewer values than it needs. A decoded instruction never does. -/
  | missingValue
deriving DecidableEq, Repr

namespace FaultKind

def message : FaultKind → String
  | invalidOpcode word => "invalid opcode in instruction word " ++ word.render
  | invalidMode digit => "invalid parameter mode " ++ digit.render
  | inputNotConnected => "input is not connected"
  | inputExhausted => "input is exhausted"
  | incompleteInstruction => "incomplete instruction"
  | pastEnd => "instruction pointer is past the end of program"
  | negativeAddress address => "negative address " ++ address.render
  | missingDestination => "instruction has no destination"
  | missingValue => "instruction has too few values"

end FaultKind

/-- A failed instruction: what went wrong and where its instruction word stands. -/
structure Fault where
  kind : FaultKind
  address : Nat
deriving DecidableEq, Repr

namespace Fault

def message (fault : Fault) : String :=
  fault.kind.message ++ " @ " ++ toString fault.address

end Fault

end Intcode
