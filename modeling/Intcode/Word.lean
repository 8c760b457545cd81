namespace Intcode

/-- A signed 64-bit integer. `+` and `*` wrap at 64 bits, `/` and `%` truncate
toward zero. -/
abbrev Word := Int64

namespace Word

/-- Addition that stops at the largest or the smallest word instead of wrapping. -/
def clampedAdd (left right : Word) : Word :=
  Int64.ofIntClamp (left.toInt + right.toInt)

/-- The address a word stands for. A negative word stands for none. -/
def address? (word : Word) : Option Nat :=
  if word < 0 then none else some word.toNatClampNeg

/-- One for true and zero for false. -/
def ofBool (condition : Bool) : Word :=
  if condition then 1 else 0

end Word

end Intcode
