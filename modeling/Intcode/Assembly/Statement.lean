import Intcode.Assembly.Token
import Intcode.Opcode

namespace Intcode.Assembly

inductive Argument where
  /-- A literal, passed as an immediate value. -/
  | number (value : Word)
  /-- The address of a label, passed as an immediate value. -/
  | label (name : String)
  /-- The cell of a variable, passed as a position. -/
  | var (name : String)
deriving DecidableEq, Repr

/-- The most parameters an opcode has. -/
def maxArity : Nat := 3

inductive Item where
  /-- A name for the next cell. -/
  | label (name : String)
  /-- One cell with its initial word. -/
  | var (name : String) (initial : Word)
  /-- An opcode and room for its arguments. Only the first ones, as many as the
  opcode has parameters, mean anything. -/
  | instruction (opcode : Opcode) (slots : Vector Argument maxArity)
deriving DecidableEq, Repr

namespace Item

/-- The arguments that mean something. -/
def arguments : Item → List Argument
  | instruction opcode slots => slots.toList.take opcode.arity
  | _ => []

def width : Item → Nat
  | label _ => 0
  | var _ _ => 1
  | instruction opcode _ => opcode.width

/-- An instruction with these arguments. Slots that are left over hold zero. -/
def ofArguments (opcode : Opcode) (arguments : List Argument) : Item :=
  .instruction opcode (Vector.ofFn fun i => arguments[i.val]?.getD (.number 0))

end Item

structure Statement where
  /-- The number of the line, from one. -/
  line : Nat
  item : Item
deriving DecidableEq, Repr

end Intcode.Assembly
