import Intcode.Word

namespace Intcode

/-- What a parameter is for: a value that is read, or the place of a result. -/
inductive ParamKind where
  | value
  | destination
deriving DecidableEq, Repr

/-- Whether an instruction meets the outside world. -/
inductive Traffic where
  | internal
  | input
  | output
deriving DecidableEq, Repr

inductive Opcode where
  | add
  | mul
  | input
  | output
  | jumpTrue
  | jumpFalse
  | less
  | equal
  | adjustBase
  | halt
deriving DecidableEq, Repr, Inhabited

/-- What an instruction asks of the machine. -/
inductive Effect where
  | write (word : Word)
  /-- Write the next input value to the destination. -/
  | input
  | output (word : Word)
  | jump (target : Word)
  | adjustBase (offset : Word)
  | halt
  /-- Go on with the next instruction, as after a jump whose condition fails. -/
  | idle
deriving DecidableEq, Repr

namespace Opcode

/-- The instruction set in the order of its table. -/
def all : List Opcode :=
  [add, mul, input, output, jumpTrue, jumpFalse, less, equal, adjustBase, halt]

/-- The two low decimal digits of an instruction word. -/
def code : Opcode → Word
  | add => 1
  | mul => 2
  | input => 3
  | output => 4
  | jumpTrue => 5
  | jumpFalse => 6
  | less => 7
  | equal => 8
  | adjustBase => 9
  | halt => 99

def mnemonic : Opcode → String
  | add => "add"
  | mul => "mul"
  | input => "in"
  | output => "out"
  | jumpTrue => "tjmp"
  | jumpFalse => "fjmp"
  | less => "lt"
  | equal => "eq"
  | adjustBase => "rbs"
  | halt => "end"

/-- One line of help on an opcode. -/
def summary : Opcode → String
  | add => "Performs `dest <- a + b`"
  | mul => "Performs `dest <- a * b`"
  | input => "Reads next input value to `dest`"
  | output => "Writes `a` to output"
  | jumpTrue => "Jump to `addr` if `a != 0`"
  | jumpFalse => "Jump to `addr` if `a == 0`"
  | less => "Performs `dest <- a < b`"
  | equal => "Performs `dest <- a == b`"
  | adjustBase => "Performs `base <- base + a`"
  | halt => "Stop execution process"

/-- The parameters in the order in which they follow the instruction word. A
destination never stands before a value. -/
def params : Opcode → List ParamKind
  | add | mul | less | equal => [.value, .value, .destination]
  | input => [.destination]
  | output | adjustBase => [.value]
  | jumpTrue | jumpFalse => [.value, .value]
  | halt => []

def traffic : Opcode → Traffic
  | input => .input
  | output => .output
  | _ => .internal

def arity (opcode : Opcode) : Nat :=
  opcode.params.length

/-- The number of cells an instruction takes, its instruction word included. -/
def width (opcode : Opcode) : Nat :=
  opcode.arity + 1

def ofCode? (code : Word) : Option Opcode :=
  all.find? fun opcode => opcode.code == code

/-- The opcode with a given mnemonic, in lower case. -/
def ofMnemonic? (name : String) : Option Opcode :=
  all.find? fun opcode => opcode.mnemonic == name

/-- The effect of an opcode on the values of its value parameters. It needs one
value for each of them and looks at no more. -/
def effect? : Opcode → List Word → Option Effect
  | add, a :: b :: _ => some (.write (a + b))
  | mul, a :: b :: _ => some (.write (a * b))
  | input, _ => some .input
  | output, a :: _ => some (.output a)
  | jumpTrue, a :: target :: _ => some (if a ≠ 0 then .jump target else .idle)
  | jumpFalse, a :: target :: _ => some (if a = 0 then .jump target else .idle)
  | less, a :: b :: _ => some (.write (Word.ofBool (a < b)))
  | equal, a :: b :: _ => some (.write (Word.ofBool (a = b)))
  | adjustBase, a :: _ => some (.adjustBase a)
  | halt, _ => some .halt
  | _, _ => none

end Opcode

end Intcode
