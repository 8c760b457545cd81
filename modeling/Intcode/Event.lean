import Intcode.Machine
import Intcode.Text.Controls
import Intcode.Word.Decimal

namespace Intcode

/-- How much an event matters, the gravest first. -/
inductive Level where
  | error
  | warn
  | info
  | debug
  | trace
deriving DecidableEq, Repr

inductive Event where
  | machineCreated (size : Nat)
  | suspended (reason : Suspension) (pointer : Nat) (base : Word)
  | machineHalted (pointer : Nat)
  | machineFaulted (fault : Fault)
  | stageFinished (index : Nat) (phase signal : Word)
  | roundFinished (rounds : Nat) (progressed : Bool)
  | ringHalted (rounds : Nat)
  | assembled (statements labels vars words : Nat)
  | programLoaded (size : Nat)
  | inputGiven (count : Nat)
  | invalidInput (text : String) (error : NumberError)
  | unreadableInput (reason : String)
deriving DecidableEq, Repr

namespace Level

/-- The levels from 0 for the gravest. -/
def rank : Level → Nat
  | error => 0
  | warn => 1
  | info => 2
  | debug => 3
  | trace => 4

def name : Level → String
  | error => "ERROR"
  | warn => "WARN"
  | info => "INFO"
  | debug => "DEBUG"
  | trace => "TRACE"

end Level

namespace Suspension

def name : Suspension → String
  | aboutToInput => "AboutToInput"
  | afterInput => "AfterInput"
  | aboutToOutput => "AboutToOutput"
  | afterOutput => "AfterOutput"
  | halted => "Halted"

end Suspension

namespace Event

def level : Event → Level
  | suspended .. | stageFinished .. | roundFinished .. => .trace
  | machineCreated _ | machineHalted _ | machineFaulted _ | ringHalted _ | assembled ..
  | inputGiven _ => .debug
  | programLoaded _ => .info
  | invalidInput .. | unreadableInput _ => .warn

/-- The area of the program an event belongs to. -/
def area : Event → String
  | machineCreated _ | suspended .. | machineHalted _ | machineFaulted _ => "intcode_base::runner"
  | stageFinished .. | roundFinished .. | ringHalted _ => "intcode_base::network"
  | assembled .. => "intcode_as"
  | programLoaded _ | inputGiven _ | invalidInput .. | unreadableInput _ => "intcodec"

/-- What an event says, its values apart. -/
def title : Event → String
  | machineCreated _ => "runner created"
  | suspended .. => "suspended"
  | machineHalted _ => "runner halted"
  | machineFaulted _ => "runner faulted"
  | stageFinished .. => "chain stage finished"
  | roundFinished .. => "feedback round finished"
  | ringHalted _ => "feedback loop halted"
  | assembled .. => "program assembled"
  | programLoaded _ => "program loaded"
  | inputGiven _ => "input values given"
  | invalidInput text error =>
      s!"invalid input value `{Text.showControls text}`: {error.message}"
  | unreadableInput reason => s!"failed to read stdin: {reason}"

/-- The values of an event, each under its name. -/
def fields : Event → List (String × String)
  | machineCreated size | programLoaded size => [("len", toString size)]
  | suspended reason pointer base =>
      [("reason", reason.name), ("ip", toString pointer), ("relative_base", base.render)]
  | machineHalted pointer => [("ip", toString pointer)]
  | machineFaulted fault => [("error", fault.message)]
  | stageFinished index phase signal =>
      [("index", toString index), ("phase", phase.render), ("signal", signal.render)]
  | roundFinished rounds progressed =>
      [("rounds", toString rounds), ("progressed", toString progressed)]
  | ringHalted rounds => [("rounds", toString rounds)]
  | assembled statements labels vars words =>
      [("statements", toString statements), ("labels", toString labels),
       ("variables", toString vars), ("words", toString words)]
  | inputGiven count => [("count", toString count)]
  | invalidInput .. | unreadableInput _ => []

/-- The names an event can be asked for. What it says goes by a name as well. -/
def names (event : Event) : List String :=
  "message" :: event.fields.map Prod.fst

/-- The line of text of an event: what it says and behind it the values. -/
def message (event : Event) : String :=
  event.fields.foldl (fun line (name, value) => s!"{line} {name}={value}") event.title

/-- The events of a machine that gives control back. A fault is an event of the
resume in which it arises. -/
def ofOutcome (machine : Machine) : Outcome → List Event
  | .ok .halted =>
      [suspended .halted machine.pointer machine.base, machineHalted machine.pointer]
  | .ok reason => [suspended reason machine.pointer machine.base]
  | .error fault => [machineFaulted fault]

end Event

end Intcode
