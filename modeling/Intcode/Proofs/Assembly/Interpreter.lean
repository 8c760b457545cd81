import Intcode.Endpoints
import Intcode.Proofs.Assembly.Layout
import Mathlib.Logic.Function.Basic

namespace Intcode.Assembly

/-! # Interpreting a text directly

The items of a text carried out one by one, with a store of variables in place of memory
and an index in place of addresses. Only a label that is used as a value shows its address.
-/

inductive Interpreter.Status where
  | running
  /-- Stopped before input for a variable. -/
  | reading (name : String)
  | writing (word : Word)
  | halted
  | failed (kind : FaultKind)

structure Interpreter where
  store : String → Word
  /-- The index of the item that control is at. -/
  next : Nat
  input : Option Source
  output : List Word := []
  status : Interpreter.Status := .running

namespace Interpreter

abbrev Report := Except FaultKind Suspension

/-- The first instruction of some items, and the index behind it. -/
def fetchIn (index : Nat) : List Item → Option (Opcode × List Argument × Nat)
  | [] => none
  | .instruction opcode slots :: _ =>
      some (opcode, (Item.instruction opcode slots).arguments, index + 1)
  | .label _ :: rest | .var _ _ :: rest => fetchIn (index + 1) rest

def fetch? (items : List Item) (index : Nat) : Option (Opcode × List Argument × Nat) :=
  fetchIn index (items.drop index)

def start (items : List Item) (input : Option Source) : Interpreter where
  store name := (Layout.initial? items name).getD 0
  next := Layout.begins items
  input

def fail (interpreter : Interpreter) (kind : FaultKind) : Interpreter × Option Report :=
  ({ interpreter with status := .failed kind }, some (.error kind))

def assign (interpreter : Interpreter) (name : String) (word : Word) : Interpreter :=
  { interpreter with store := Function.update interpreter.store name word }

def goTo (interpreter : Interpreter) (items : List Item) (name : String) : Interpreter :=
  { interpreter with next := (Layout.labelIndex? items name).getD items.length }

/-- Carries out an instruction that control has already passed. Nothing depends on the relative
base. The last case is no statement of a text in which jumps go to labels. -/
def perform (items : List Item) (interpreter : Interpreter) (opcode : Opcode)
    (arguments : List Argument) : Interpreter × Option Report :=
  let value := Layout.valueOf items interpreter.store
  match opcode, arguments with
  | .add, [left, right, .var name] => (interpreter.assign name (value left + value right), none)
  | .mul, [left, right, .var name] => (interpreter.assign name (value left * value right), none)
  | .less, [left, right, .var name] =>
      (interpreter.assign name (if value left < value right then 1 else 0), none)
  | .equal, [left, right, .var name] =>
      (interpreter.assign name (if value left = value right then 1 else 0), none)
  | .input, [.var name] => ({ interpreter with status := .reading name }, some (.ok .aboutToInput))
  | .output, [argument] =>
      ({ interpreter with status := .writing (value argument) }, some (.ok .aboutToOutput))
  | .jumpTrue, [tested, .label name] =>
      (if value tested ≠ 0 then interpreter.goTo items name else interpreter, none)
  | .jumpFalse, [tested, .label name] =>
      (if value tested = 0 then interpreter.goTo items name else interpreter, none)
  | .adjustBase, [_] => (interpreter, none)
  | .halt, [] => ({ interpreter with status := .halted }, some (.ok .halted))
  | _, _ => interpreter.fail .missingValue

def receive (interpreter : Interpreter) (name : String) : Interpreter × Option Report :=
  match interpreter.input with
  | none => interpreter.fail .inputNotConnected
  | some source =>
      let interpreter := { interpreter with input := some source.next.2 }
      match source.next.1 with
      | none => interpreter.fail .inputExhausted
      | some word =>
          ({ interpreter.assign name word with status := .running }, some (.ok .afterInput))

def step (items : List Item) (interpreter : Interpreter) : Interpreter × Option Report :=
  match interpreter.status with
  | .running =>
      match fetch? items interpreter.next with
      | none => interpreter.fail .pastEnd
      | some (opcode, arguments, behind) =>
          perform items { interpreter with next := behind } opcode arguments
  | .reading name => interpreter.receive name
  | .writing word =>
      ({ interpreter with output := interpreter.output ++ [word], status := .running },
        some (.ok .afterOutput))
  | .halted => (interpreter, some (.ok .halted))
  | .failed kind => (interpreter, some (.error kind))

end Interpreter

/-- A text in which control only meets instructions: jumps go to labels, labels lead to
instructions or to the end, and variables stand where control never comes. -/
structure Structured (items : List Item) : Prop where
  jumps : ∀ opcode slots, .instruction opcode slots ∈ items →
    opcode = .jumpTrue ∨ opcode = .jumpFalse →
      ∃ name, (Item.instruction opcode slots).arguments[1]? = some (.label name)
  labels : ∀ (index : Nat) (name : String), items[index]? = some (.label name) →
    ∃ stop, index < stop ∧
      (∀ between : Nat, index < between → between < stop →
        ∃ other, items[between]? = some (.label other)) ∧
      (items[stop]? = none ∨ ∃ opcode slots, items[stop]? = some (.instruction opcode slots))
  vars : ∀ (index : Nat) (name : String) (initial : Word), items[index]? = some (.var name initial) →
    (∀ (before : Nat) opcode slots, before < index →
      items[before]? ≠ some (.instruction opcode slots)) ∨
    ∃ last slots, last < index ∧ items[last]? = some (.instruction .halt slots) ∧
      ∀ between : Nat, last < between → between < index →
        ∃ other value, items[between]? = some (.var other value)

end Intcode.Assembly
