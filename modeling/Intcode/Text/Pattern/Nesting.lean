namespace Intcode.Text.Pattern

/-- The depth up to which a pattern can be read. -/
def nestingLimit : Nat := 250

/-- Parts side by side. -/
structure Row where
  count : Nat := 0
  /-- The depth of the deepest part. -/
  deepest : Nat := 0
deriving DecidableEq, Repr

namespace Row

def push (row : Row) (depth : Nat) : Row :=
  { count := row.count + 1, deepest := max row.deepest depth }

/-- Makes a part of the row as deep as this. -/
def deepen (row : Row) (depth : Nat) : Row :=
  { row with deepest := max row.deepest depth }

/-- The depth of the row as one part. -/
def depth (row : Row) : Nat :=
  if row.count ≤ 1 then row.deepest else row.deepest + 1

end Row

end Intcode.Text.Pattern
