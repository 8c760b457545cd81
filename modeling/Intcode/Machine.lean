import Intcode.Instruction.Decode

namespace Intcode

/-! # The machine

A machine runs one copy of a program. It gives control back at a suspension:
before and after every instruction that takes input or gives output, and when it
halts. What it is in the middle of is its phase. A machine that has halted or
faulted stays as it is.
-/

/-- Why a machine gave control back. -/
inductive Suspension where
  /-- The next instruction takes input; it does so when the machine goes on. -/
  | aboutToInput
  | afterInput
  /-- The next instruction gives output; it does so when the machine goes on. -/
  | aboutToOutput
  | afterOutput
  | halted
deriving DecidableEq, Repr

/-- What a machine says when it gives control back. -/
abbrev Outcome := Except Fault Suspension

inductive Phase where
  | running
  /-- Stopped before an instruction that takes input. -/
  | reading (instruction : Instruction)
  /-- Stopped before handing out a word. -/
  | writing (word : Word)
  | halted
  | faulted (fault : Fault)
deriving DecidableEq, Repr

structure Machine where
  memory : Memory
  /-- The address of the next instruction, or how far a failed one was read. -/
  pointer : Nat := 0
  base : Word := 0
  phase : Phase := .running
deriving DecidableEq

/-- What an input source answers. -/
inductive Offer where
  | disconnected
  | exhausted
  | value (word : Word)
deriving DecidableEq, Repr

namespace Offer

/-- The answer of a source that is connected and has this to give. -/
def ofValue? : Option Word → Offer
  | some word => value word
  | none => exhausted

end Offer

namespace Machine

instance : Inhabited Machine := ⟨{ memory := default }⟩

def ofProgram (program : Program) : Machine :=
  { memory := Memory.ofProgram program }

def isHalted (machine : Machine) : Bool :=
  match machine.phase with
  | .halted => true
  | _ => false

/-- Has the machine halted or faulted, so that it will never move again? -/
def isOver (machine : Machine) : Bool :=
  match machine.phase with
  | .halted | .faulted _ => true
  | _ => false

/-- Will the machine take input when it goes on? -/
def isAwaitingInput (machine : Machine) : Bool :=
  match machine.phase with
  | .reading _ => true
  | _ => false

/-- Stops a machine for good because an instruction failed. -/
def fail (machine : Machine) (fault : Fault) : Machine × Outcome :=
  ({ machine with phase := .faulted fault }, .error fault)

def destinationOf (instruction : Instruction) (base : Word) : Except Fault Nat :=
  match instruction.operands.destination with
  | none => .error { kind := .missingDestination, address := instruction.address }
  | some destination =>
      match destination.resolve base with
      | .ok address => .ok address
      | .error address =>
          .error { kind := .negativeAddress address, address := instruction.address }

/-- Carries out a decoded instruction whose pointer has already moved on. The
machine keeps running unless there is an outcome. -/
def execute (machine : Machine) (instruction : Instruction) : Machine × Option Outcome :=
  match instruction.opcode.effect? instruction.operands.values with
  | none => (machine.fail { kind := .missingValue, address := instruction.address }).map id some
  | some (.write word) =>
      match destinationOf instruction machine.base with
      | .ok address => ({ machine with memory := machine.memory.set address word }, none)
      | .error fault => (machine.fail fault).map id some
  | some .input => ({ machine with phase := .reading instruction }, some (.ok .aboutToInput))
  | some (.output word) => ({ machine with phase := .writing word }, some (.ok .aboutToOutput))
  | some (.jump target) =>
      match Word.address? target with
      | some address => ({ machine with pointer := address }, none)
      | none =>
          (machine.fail { kind := .negativeAddress target, address := instruction.address }).map
            id some
  | some (.adjustBase offset) => ({ machine with base := machine.base + offset }, none)
  | some .halt => ({ machine with phase := .halted }, some (.ok .halted))
  | some .idle => (machine, none)

/-- Decodes and carries out one instruction of a running machine. -/
def step (machine : Machine) : Machine × Option Outcome :=
  match Instruction.decode machine.memory machine.base machine.pointer with
  | (pointer, .error fault) => ({ machine with pointer }.fail fault).map id some
  | (pointer, .ok instruction) => { machine with pointer }.execute instruction

/-- Runs up to `fuel` instructions, up to the next outcome. Without an answer
the fuel was not enough. -/
def advance : (fuel : Nat) → Machine → Option (Machine × Outcome)
  | 0, _ => none
  | fuel + 1, machine =>
      match machine.step with
      | (machine, some outcome) => some (machine, outcome)
      | (machine, none) => advance fuel machine

/-- Gives a machine that stopped before `instruction` what its input source
answers. A value that has no cell to go to is lost. -/
def receive (machine : Machine) (instruction : Instruction) (offer : Offer) : Machine × Outcome :=
  match offer with
  | .disconnected =>
      machine.fail { kind := .inputNotConnected, address := instruction.address }
  | .exhausted => machine.fail { kind := .inputExhausted, address := instruction.address }
  | .value word =>
      match destinationOf instruction machine.base with
      | .error fault => machine.fail fault
      | .ok address =>
          ({ machine with memory := machine.memory.set address word, phase := .running },
            .ok .afterInput)

end Machine

end Intcode
