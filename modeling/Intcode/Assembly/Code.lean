import Intcode.Assembly.Symbols
import Intcode.InstructionWord

namespace Intcode.Assembly

namespace Argument

def isImmediate : Argument → Bool
  | number _ | label _ => true
  | var _ => false

end Argument

namespace Symbols

/-- The address of a cell that stands `place` cells behind the first statement. -/
def address (symbols : Symbols) (place : Nat) : Word :=
  Int64.ofNat (place + symbols.headerSize)

def argumentWord (symbols : Symbols) (line : Nat) : Argument → Except CodeError Word
  | .number value => .ok value
  | .label name =>
      match symbols.labels[name]? with
      | some place => .ok (symbols.address place)
      | none => .error { fault := .unknownLabel name, line }
  | .var name =>
      match symbols.vars[name]? with
      | some place => .ok (symbols.address place)
      | none => .error { fault := .undeclaredVariable name, line }

def cells (symbols : Symbols) (statement : Statement) : Except CodeError (List Word) :=
  match statement.item with
  | .label _ => .ok []
  | .var _ initial => .ok [initial]
  | .instruction opcode _ =>
      let arguments := statement.item.arguments
      let word := InstructionWord.encode opcode (arguments.map Argument.isImmediate)
      (arguments.mapM (symbols.argumentWord statement.line)).map (word :: ·)

/-- The jump over the variables, to the first instruction or, without one, to
the end. -/
def header (symbols : Symbols) : List Word :=
  if symbols.headerSize = 0 then []
  else
    [InstructionWord.encode .jumpTrue [true, true], 1,
      symbols.address (symbols.codeStart.getD symbols.count)]

/-- The words of a batch of statements, behind the header. -/
def generate (symbols : Symbols) (batch : List Statement) : Except CodeError (List Word) :=
  (batch.mapM symbols.cells).map fun cells => symbols.header ++ cells.flatten

end Symbols

end Intcode.Assembly
