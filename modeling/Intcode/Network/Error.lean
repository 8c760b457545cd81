import Intcode.Fault

namespace Intcode

/-- Why several machines in a row or in a ring give no signal. -/
inductive NetworkError where
  /-- There are no machines. -/
  | empty
  | failed (index : Nat) (fault : Fault)
  | noOutput (index : Nat)
  /-- Every machine has halted or waits for input that no other will give. -/
  | deadlock
deriving DecidableEq, Repr

namespace NetworkError

def message : NetworkError → String
  | empty => "no phase settings given"
  | failed index fault => s!"instance #{index} failed: {fault.message}"
  | noOutput index => s!"instance #{index} produced no output"
  | deadlock => "every instance is waiting for input"

end NetworkError

end Intcode
