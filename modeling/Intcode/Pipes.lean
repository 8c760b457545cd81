import Intcode.Word

namespace Intcode

/-- Queues, and for each handle the queue it names. -/
structure Pipes where
  queues : Array (List Word) := #[]
  handles : Array Nat := #[]
deriving DecidableEq, Repr

namespace Pipes

/-- Adds a queue with the given values, and a handle that names it. -/
def create (pipes : Pipes) (values : List Word) : Pipes :=
  { queues := pipes.queues.push values, handles := pipes.handles.push pipes.queues.size }

/-- Adds a handle that names the same queue. -/
def clone? (pipes : Pipes) (handle : Nat) : Option Pipes :=
  pipes.handles[handle]?.map fun queue => { pipes with handles := pipes.handles.push queue }

/-- The values in the queue of a handle, the oldest first. -/
def values? (pipes : Pipes) (handle : Nat) : Option (List Word) :=
  pipes.handles[handle]?.bind fun queue => pipes.queues[queue]?

/-- Changes the queue of a handle. -/
def modify (pipes : Pipes) (handle : Nat) (change : List Word → List Word) : Pipes :=
  match pipes.handles[handle]? with
  | some queue => { pipes with queues := pipes.queues.modify queue change }
  | none => pipes

def push (pipes : Pipes) (handle : Nat) (word : Word) : Pipes :=
  pipes.modify handle (· ++ [word])

/-- Takes the oldest word out of a queue, if there is one. -/
def pop (pipes : Pipes) (handle : Nat) : Option Word × Pipes :=
  ((pipes.values? handle).bind List.head?, pipes.modify handle List.tail)

def drain (pipes : Pipes) (handle : Nat) : List Word × Pipes :=
  ((pipes.values? handle).getD [], pipes.modify handle fun _ => [])

/-- The length of the queue of each handle. -/
def lengths (pipes : Pipes) : List Nat :=
  (List.range pipes.handles.size).map fun handle => ((pipes.values? handle).getD []).length

end Pipes

end Intcode
