import Intcode.Endpoints
import Intcode.Proofs.Word
import Mathlib.Logic.Function.Basic

namespace Intcode

/-! # The plain machine

The machine as it is without suspensions. Memory is one total map, and an instruction,
input and output included, is carried out as a whole. Arithmetic is done on integers and
wrapped at the end. Only the cells of the program are run.
-/

inductive Plain.Status where
  | running
  | halted
  | failed (fault : Fault)

structure Plain where
  cells : Nat → Word
  /-- The length of the program. -/
  size : Nat
  pointer : Nat := 0
  base : Word := 0
  /-- What input comes from, if anything is connected. -/
  input : Option Source
  output : List Word := []
  status : Plain.Status := .running

namespace Plain

def start (program : Program) (input : Option Source) : Plain where
  cells := fun address => program.words[address]?.getD 0
  size := program.words.length
  input

/-- What carrying out an instruction leads to, and what there is to report about it. -/
abbrev Report := Plain × Option Outcome

/-- Stops at the instruction for good. -/
def fail (plain : Plain) (kind : FaultKind) : Report :=
  let fault : Fault := { kind, address := plain.pointer }
  ({ plain with status := .failed fault }, some (.error fault))

def attempt (plain : Plain) (action : Except FaultKind Report) : Report :=
  match action with
  | .ok report => report
  | .error kind => plain.fail kind

def word (plain : Plain) : Word :=
  plain.cells plain.pointer

/-- The mode digit and the word of a parameter, which has to lie inside the program. -/
def parameter (plain : Plain) (index : Nat) : Except FaultKind (Int × Word) :=
  if plain.pointer + 1 + index < plain.size then
    .ok ((plain.word.toInt.tdiv (10 ^ (index + 2))).tmod 10, plain.cells (plain.pointer + 1 + index))
  else .error .incompleteInstruction

/-- The relative base plus an offset, as far as words go. -/
def relative (plain : Plain) (offset : Word) : Int :=
  max (-2 ^ 63) (min (plain.base.toInt + offset.toInt) (2 ^ 63 - 1))

def load (plain : Plain) (place : Int) : Except FaultKind Word :=
  if place < 0 then .error (.negativeAddress (Int64.ofInt place)) else .ok (plain.cells place.toNat)

def value (plain : Plain) (index : Nat) : Except FaultKind Word :=
  match plain.parameter index with
  | .error kind => .error kind
  | .ok (0, word) => plain.load word.toInt
  | .ok (1, word) => .ok word
  | .ok (2, word) => plain.load (plain.relative word)
  | .ok (digit, _) => .error (.invalidMode (Int64.ofInt digit))

/-- Where a parameter sends a result to, which may turn out to be no address. -/
def target (plain : Plain) (index : Nat) : Except FaultKind Int :=
  match plain.parameter index with
  | .error kind => .error kind
  | .ok (0, word) => .ok word.toInt
  | .ok (2, word) => .ok (plain.relative word)
  | .ok (digit, _) => .error (.invalidMode (Int64.ofInt digit))

/-- Goes on behind an instruction of a given width. -/
def pass (plain : Plain) (width : Nat) (report : Option Outcome) : Report :=
  ({ plain with pointer := plain.pointer + width }, report)

def store (plain : Plain) (place : Int) (word : Word) (width : Nat) (report : Option Outcome) :
    Report :=
  if place < 0 then plain.fail (.negativeAddress (Int64.ofInt place))
  else { plain with cells := Function.update plain.cells place.toNat word }.pass width report

/-- Stores what a rule makes of two integers. -/
def compute (plain : Plain) (rule : Int → Int → Int) : Except FaultKind Report := do
  let left ← plain.value 0
  let right ← plain.value 1
  let place ← plain.target 2
  return plain.store place (Int64.ofInt (rule left.toInt right.toInt)) 4 none

def jumpIf (plain : Plain) (condition : Int → Bool) : Except FaultKind Report := do
  let tested ← plain.value 0
  let target ← plain.value 1
  if condition tested.toInt then
    if target.toInt < 0 then throw (.negativeAddress target)
    else return ({ plain with pointer := target.toInt.toNat }, none)
  else return plain.pass 3 none

/-- Takes a value first and finds out afterwards whether it has a place to go to. -/
def take (plain : Plain) : Except FaultKind Report := do
  let place ← plain.target 0
  match plain.input with
  | none => throw .inputNotConnected
  | some source =>
      let plain := { plain with input := some source.next.2 }
      match source.next.1 with
      | none => return plain.fail .inputExhausted
      | some word => return plain.store place word 2 (some (.ok .afterInput))

def give (plain : Plain) : Except FaultKind Report := do
  let word ← plain.value 0
  return { plain with output := plain.output ++ [word] }.pass 2 (some (.ok .afterOutput))

def moveBase (plain : Plain) : Except FaultKind Report := do
  let offset ← plain.value 0
  return { plain with base := Int64.ofInt (plain.base.toInt + offset.toInt) }.pass 2 none

/-- The table of opcodes. -/
def perform (plain : Plain) : Except FaultKind Report :=
  match plain.word.toInt.tmod 100 with
  | 1 => plain.compute fun left right => left + right
  | 2 => plain.compute fun left right => left * right
  | 3 => plain.take
  | 4 => plain.give
  | 5 => plain.jumpIf fun tested => tested ≠ 0
  | 6 => plain.jumpIf fun tested => tested = 0
  | 7 => plain.compute fun left right => if left < right then 1 else 0
  | 8 => plain.compute fun left right => if left = right then 1 else 0
  | 9 => plain.moveBase
  | 99 => .ok ({ plain with status := .halted }.pass 1 (some (.ok .halted)))
  | _ => .error (.invalidOpcode plain.word)

def step (plain : Plain) : Report :=
  match plain.status with
  | .halted => (plain, some (.ok .halted))
  | .failed fault => (plain, some (.error fault))
  | .running =>
      if plain.pointer < plain.size then plain.attempt plain.perform else plain.fail .pastEnd

end Plain

end Intcode
