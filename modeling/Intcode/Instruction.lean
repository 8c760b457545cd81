import Intcode.InstructionWord

namespace Intcode

/-- The place of a result, still to be resolved against the relative base. -/
structure Destination where
  mode : Mode
  raw : Word
deriving DecidableEq, Repr

/-- The address that a parameter word means in a mode other than immediate. An
offset is added to the base without wrapping. A negative address is returned as
the error. -/
def resolveAddress (mode : Mode) (raw base : Word) : Except Word Nat :=
  let address := if mode = .relative then Word.clampedAdd base raw else raw
  match Word.address? address with
  | some index => .ok index
  | none => .error address

namespace Destination

/-- The address of a destination, or the negative number that is none. -/
def resolve (destination : Destination) (base : Word) : Except Word Nat :=
  resolveAddress destination.mode destination.raw base

end Destination

/-- The operands of an instruction: its values in order, and where its result goes. -/
structure Operands where
  values : List Word := []
  destination : Option Destination := none
deriving DecidableEq, Repr

structure Instruction where
  opcode : Opcode
  /-- Where the instruction word stands. -/
  address : Nat
  operands : Operands
deriving DecidableEq, Repr

end Intcode
