import Intcode.Word

namespace Intcode

/-- The initial content of memory, from address zero on. -/
structure Program where
  words : List Word
deriving DecidableEq, Repr, Inhabited

namespace Program

def size (program : Program) : Nat :=
  program.words.length

end Program

end Intcode
