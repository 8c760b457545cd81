import Intcode.Machine.Run

namespace Intcode

/-- A supply of input values. -/
inductive Source where
  /-- These values and no more. -/
  | queue (values : List Word)
  /-- An endless supply, of which `taken` values were handed out. -/
  | stream (values : Nat → Word) (taken : Nat)

namespace Source

/-- The same word for ever. -/
def constant (word : Word) : Source :=
  .stream (fun _ => word) 0

/-- The words after `word` in order, around the end of the range. -/
def counter (word : Word) : Source :=
  .stream (fun taken => word + Int64.ofNat (taken + 1)) 0

/-- Takes the next value, if there is one. -/
def next : Source → Option Word × Source
  | queue [] => (none, queue [])
  | queue (word :: rest) => (some word, queue rest)
  | stream values taken => (some (values taken), stream values (taken + 1))

end Source

/-- What the input of a machine is connected to. -/
inductive Feed where
  | disconnected
  | source (source : Source)
  | inbox

structure Endpoints where
  feed : Feed := .disconnected
  /-- What is done to a word before it goes to the outbox. Without it output is dropped. -/
  sink : Option (Word → Word) := none
  inbox : List Word := []
  outbox : Array Word := #[]

namespace Endpoints

/-- Answers a machine that asks for input. -/
def read (ends : Endpoints) : Offer × Endpoints :=
  match ends.feed with
  | .disconnected => (.disconnected, ends)
  | .source source =>
      let (word, source) := source.next
      (.ofValue? word, { ends with feed := .source source })
  | .inbox => (.ofValue? ends.inbox.head?, { ends with inbox := ends.inbox.tail })

/-- Takes a word a machine hands out. -/
def write (ends : Endpoints) (word : Word) : Endpoints :=
  match ends.sink with
  | none => ends
  | some transform => { ends with outbox := ends.outbox.push (transform word) }

/-- Endpoints as the ports of a machine that runs beside other effects. -/
def ports {m : Type → Type} [Monad m] : Ports (StateT Endpoints m) where
  read := modifyGet read
  write word := modify (·.write word)

/-- Endpoints that supply the given values and collect all output. -/
def ofQueue (values : List Word) : Endpoints :=
  { feed := .source (.queue values), sink := some id }

end Endpoints

end Intcode
