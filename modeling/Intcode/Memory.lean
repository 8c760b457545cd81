import Std.Data.ExtTreeMap
import Intcode.Program

namespace Intcode

/-! # Memory

Memory gives every address a word. The cells the program came with are kept
densely; a cell beyond them is kept once it is written, and reads as zero before
that. Two memories are equal when they have the same dense cells and the same
cells were written beyond them with the same words, so a zero written beyond the
program shows although it reads like an untouched cell.
-/

/-- Dense cells from address zero on, and the cells written beyond them. -/
structure Memory where
  dense : Array Word
  sparse : Std.ExtTreeMap Nat Word := ∅
deriving DecidableEq

namespace Memory

instance : Inhabited Memory := ⟨{ dense := #[] }⟩

/-- Memory that holds the words of a program and nothing beyond. -/
def ofProgram (program : Program) : Memory :=
  { dense := program.words.toArray }

/-- The number of dense cells. -/
def size (memory : Memory) : Nat :=
  memory.dense.size

def get (memory : Memory) (address : Nat) : Word :=
  match memory.dense[address]? with
  | some word => word
  | none => memory.sparse[address]?.getD 0

def set (memory : Memory) (address : Nat) (word : Word) : Memory :=
  if address < memory.dense.size then
    { memory with dense := memory.dense.setIfInBounds address word }
  else
    { memory with sparse := memory.sparse.insert address word }

/-- One past the highest address that is dense or was written. -/
def extent (memory : Memory) : Nat :=
  match memory.sparse.maxKey? with
  | some highest => highest + 1
  | none => memory.size

/-- The cells below the extent. Cells that were never written are zero. -/
def toList (memory : Memory) : List Word :=
  memory.dense.toList ++
    (List.range' memory.size (memory.extent - memory.size)).map memory.get

end Memory

end Intcode
