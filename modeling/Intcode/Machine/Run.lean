import Intcode.Event

namespace Intcode

/-- Where a machine takes its input from and hands its output to. -/
structure Ports (m : Type → Type) where
  read : m Offer
  write : Word → m Unit

namespace Machine

/-- Goes on to the next suspension. A machine that has halted or faulted says so
again and touches nothing. Without an answer `fuel` instructions were not enough. -/
def resume {m : Type → Type} [Monad m] (ports : Ports m) (fuel : Nat) (machine : Machine) :
    m (Option (Machine × Outcome)) :=
  match machine.phase with
  | .running => pure (machine.advance fuel)
  | .reading instruction => do
      let offer ← ports.read
      pure (some (machine.receive instruction offer))
  | .writing word => do
      ports.write word
      pure (some ({ machine with phase := .running }, .ok .afterOutput))
  | .halted => pure (some (machine, .ok .halted))
  | .faulted fault => pure (some (machine, .error fault))

/-- The next item of a machine as an iterator. It yields every outcome up to a halt or a
fault, and nothing after that. -/
def next {m : Type → Type} [Monad m] (ports : Ports m) (fuel : Nat) (machine : Machine) :
    m (Option (Machine × Option Outcome)) := do
  if machine.isOver then pure (some (machine, none))
  else
    let answer ← machine.resume ports fuel
    pure (answer.map fun (machine, outcome) => (machine, some outcome))

/-- At most `count` items of the iterator. -/
def take {m : Type → Type} [Monad m] (ports : Ports m) (fuel : Nat) :
    (count : Nat) → Machine → m (Option (Machine × List Outcome))
  | 0, machine => pure (some (machine, []))
  | count + 1, machine => do
      match ← machine.next ports fuel with
      | none => pure none
      | some (machine, none) => pure (some (machine, []))
      | some (machine, some outcome) =>
          let answer ← take ports fuel count machine
          pure (answer.map fun (machine, rest) => (machine, outcome :: rest))

/-- Runs a machine until it halts, which answers its memory, or faults. -/
def run {m : Type → Type} [Monad m] (ports : Ports m) (report : Event → m Unit) :
    (fuel : Nat) → Machine → m (Option (Except Fault Memory))
  | 0, _ => pure none
  | fuel + 1, machine => do
      match ← machine.resume ports fuel with
      | none => pure none
      | some (machine, outcome) =>
          (Event.ofOutcome machine outcome).forM report
          match outcome with
          | .ok .halted => pure (some (.ok machine.memory))
          | .ok _ => run ports report fuel machine
          | .error fault => pure (some (.error fault))

end Machine

end Intcode
