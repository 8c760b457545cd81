import Intcode.Machine.Run
import Intcode.Network.Error

namespace Intcode

/-! # Rings

A ring is copies of one program that run side by side. Machine number `i` takes
its input from pipe `i` and writes to the pipe of the next machine, the last one
to pipe zero. A pipe starts with the phase of its machine, and pipe zero holds a
zero behind it.
-/

/-- The machines `0` to `last` and the pipes they read from. -/
structure Ring (last : Nat) where
  machines : Vector Machine (last + 1)
  pipes : Vector (List Word) (last + 1)

namespace Ring

def start {last : Nat} (program : Program) (phases : Vector Word (last + 1)) : Ring last where
  machines := Vector.replicate (last + 1) (Machine.ofProgram program)
  pipes := Vector.ofFn fun i => if i = 0 then [phases[i], 0] else [phases[i]]

/-- The machine after machine `i`; after the last one comes number zero. -/
def after {last : Nat} (i : Fin (last + 1)) : Fin (last + 1) :=
  i + 1

/-- The ports of machine `i`, over all pipes of the ring. -/
def ports {last : Nat} (i : Fin (last + 1)) : Ports (StateM (Vector (List Word) (last + 1))) where
  read := modifyGet fun pipes => (.ofValue? pipes[i].head?, pipes.set i pipes[i].tail)
  write word := modify fun pipes => pipes.set (after i) (pipes[after i] ++ [word])

/-- Can machine `i` move? It cannot once it has halted, nor while it waits for
input that is not there yet. -/
def canResume {last : Nat} (ring : Ring last) (i : Fin (last + 1)) : Bool :=
  !ring.machines[i].isHalted && !(ring.machines[i].isAwaitingInput && ring.pipes[i].isEmpty)

/-- Has the last machine halted? -/
def isHalted {last : Nat} (ring : Ring last) : Bool :=
  ring.machines[last].isHalted

/-- The oldest word in pipe zero. -/
def oldest? {last : Nat} (ring : Ring last) : Option Word :=
  ring.pipes[0].head?

def resumeAt {last : Nat} (ring : Ring last) (fuel : Nat) (i : Fin (last + 1)) :
    Option (Ring last × Outcome) :=
  let (answer, pipes) := (ring.machines[i].resume (ports i) fuel).run ring.pipes
  answer.map fun (machine, outcome) =>
    ({ machines := ring.machines.set i machine, pipes }, outcome)

end Ring

end Intcode
