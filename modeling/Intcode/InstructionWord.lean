import Intcode.Opcode

namespace Intcode

/-! # Instruction words

An instruction word holds the opcode in its two low decimal digits. The digits
above are the modes of the parameters, the lowest for the first; a digit that is
not there is zero. Digits of a negative word are negative or zero.
-/

/-- How the word of a parameter is meant. -/
inductive Mode where
  /-- The word is an address. -/
  | position
  /-- The word is the value. -/
  | immediate
  /-- The word is an offset from the relative base. -/
  | relative
deriving DecidableEq, Repr, Inhabited

namespace Mode

def digit : Mode → Word
  | position => 0
  | immediate => 1
  | relative => 2

def ofDigit? (digit : Word) : Option Mode :=
  if digit = 0 then some position
  else if digit = 1 then some immediate
  else if digit = 2 then some relative
  else none

end Mode

namespace InstructionWord

/-- The two low digits, with the sign of the word. -/
def code (word : Word) : Word :=
  word % 100

/-- The mode digit of the parameter at an index. From index 17 on the digit
would stand for more than a word can hold, so it is zero. -/
def modeDigit (word : Word) (index : Nat) : Word :=
  if index < 17 then word / Int64.ofNat (Nat.pow 10 (index + 2)) % 10 else 0

/-- The mode of the parameter at an index, or the digit that is no mode. -/
def mode (word : Word) (index : Nat) : Except Word Mode :=
  let digit := modeDigit word index
  match Mode.ofDigit? digit with
  | some mode => .ok mode
  | none => .error digit

/-- The sum of the digits' worths for the flags that are set, the first of which
is worth `worth` and each later one ten times the one before. -/
def marks (worth : Word) : List Bool → Word
  | [] => 0
  | flag :: rest => (if flag then worth else 0) + marks (worth * 10) rest

/-- The word of an opcode whose parameter is immediate wherever a flag is set
and a position elsewhere. There is room for 17 flags. -/
def encode (opcode : Opcode) (immediate : List Bool) : Word :=
  opcode.code + marks 100 immediate

end InstructionWord

end Intcode
