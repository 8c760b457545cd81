import Std.Data.ExtTreeMap
import Intcode.Assembly.Statement

namespace Intcode.Assembly

/-- Why statements cannot be turned into code. -/
inductive CodeFault where
  | duplicateLabel (name : String)
  | duplicateVariable (name : String)
  | unknownLabel (name : String)
  | undeclaredVariable (name : String)
deriving DecidableEq, Repr

namespace CodeFault

def name : CodeFault → String
  | duplicateLabel name | duplicateVariable name | unknownLabel name | undeclaredVariable name =>
      name

def message : CodeFault → String
  | duplicateLabel name => s!"label `{name}` is declared twice"
  | duplicateVariable name => s!"variable `{name}` is declared twice"
  | unknownLabel name => s!"unknown label `{name}`"
  | undeclaredVariable name => s!"undeclared variable `{name}`"

end CodeFault

structure CodeError where
  fault : CodeFault
  line : Nat
deriving DecidableEq, Repr

namespace CodeError

def message (error : CodeError) : String :=
  s!"{error.fault.message} at line {error.line}"

end CodeError

/-- The places of labels and variables, counted in cells from the first statement. -/
structure Symbols where
  labels : Std.ExtTreeMap String Nat := ∅
  vars : Std.ExtTreeMap String Nat := ∅
  /-- Where the first instruction stands. -/
  codeStart : Option Nat := none
  /-- The number of cells so far. -/
  count : Nat := 0
deriving DecidableEq

namespace Symbols

/-- Adds the declaration of one statement and passes its cells. -/
def declare (symbols : Symbols) (statement : Statement) : Except CodeError Symbols :=
  let place := symbols.count
  let count := place + statement.item.width
  match statement.item with
  | .label name =>
      if name ∈ symbols.labels then
        .error { fault := .duplicateLabel name, line := statement.line }
      else .ok { symbols with labels := symbols.labels.insert name place, count }
  | .var name _ =>
      if name ∈ symbols.vars then
        .error { fault := .duplicateVariable name, line := statement.line }
      else .ok { symbols with vars := symbols.vars.insert name place, count }
  | .instruction .. =>
      .ok { symbols with codeStart := symbols.codeStart.or (some place), count }

def populate (symbols : Symbols) (batch : List Statement) : Except CodeError Symbols :=
  batch.foldlM declare symbols

/-- The cells in front of the first statement: a program that has variables
begins with a jump to its first instruction. -/
def headerSize (symbols : Symbols) : Nat :=
  if symbols.vars.isEmpty then 0 else 3

end Symbols

end Intcode.Assembly
