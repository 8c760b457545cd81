import Intcode.Endpoints

namespace Intcode

structure Session where
  machine : Machine
  ends : Endpoints := {}

namespace Session

/-- A session at the start of a program, with nothing connected. -/
def ofProgram (program : Program) : Session :=
  { machine := Machine.ofProgram program }

/-- Goes on to the next suspension. -/
def resume (session : Session) (fuel : Nat) : Option (Session × Outcome) :=
  let (answer, ends) := (session.machine.resume (m := StateM Endpoints) Endpoints.ports fuel).run
    session.ends
  answer.map fun (machine, outcome) => ({ machine, ends }, outcome)

/-- The next item of the iterator, or nothing once the machine has halted or faulted. -/
def next (session : Session) (fuel : Nat) : Option (Session × Option Outcome) :=
  let (answer, ends) := (session.machine.next (m := StateM Endpoints) Endpoints.ports fuel).run
    session.ends
  answer.map fun (machine, item) => ({ machine, ends }, item)

/-- At most `count` items of the iterator. -/
def take (session : Session) (fuel count : Nat) : Option (Session × List Outcome) :=
  let (answer, ends) := (session.machine.take (m := StateM Endpoints) Endpoints.ports fuel
    count).run session.ends
  answer.map fun (machine, items) => ({ machine, ends }, items)

/-- Runs the machine to its end. The endpoints are left as the run leaves them. -/
def run (session : Session) (fuel : Nat) : Option (Except Fault Memory × Endpoints) :=
  let (answer, ends) := (session.machine.run (m := StateM Endpoints) Endpoints.ports
    (fun _ => pure ()) fuel).run session.ends
  answer.map fun result => (result, ends)

/-- Puts values at the end of the inbox. -/
def push (session : Session) (values : List Word) : Session :=
  { session with ends := { session.ends with inbox := session.ends.inbox ++ values } }

/-- Connects the input, in place of what it was connected to. -/
def connectInput (session : Session) (feed : Feed) : Session :=
  { session with ends := { session.ends with feed } }

/-- Connects the output to the outbox, by way of `transform`. -/
def connectOutput (session : Session) (transform : Word → Word) : Session :=
  { session with ends := { session.ends with sink := some transform } }

/-- Takes everything out of the outbox. -/
def drain (session : Session) : List Word × Session :=
  (session.ends.outbox.toList, { session with ends := { session.ends with outbox := #[] } })

end Session

end Intcode
