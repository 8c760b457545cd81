import Intcode.Proofs.Instruction.Operands
import Intcode.Proofs.Machine.Advance
import Intcode.Proofs.Memory.Stores

namespace Intcode

/-- One past the highest address that a word can be. -/
def addressLimit : Nat := 2 ^ 63

theorem placeOf_lt (mode : Mode) (raw base : Word) : placeOf mode raw base < 2 ^ 63 := by
  have upper := raw.toInt_lt
  unfold placeOf Word.clamp
  split <;> omega

namespace Machine

variable {machine middle after : Machine} {instruction : Instruction} {offer : Offer}
  {base word : Word} {outcome : Outcome} {stores : List Store} {store : Store}

/-- Where an instruction puts its result, if there is a cell for it. -/
def storeOf? (instruction : Instruction) (base word : Word) : Option Store :=
  match destinationOf instruction base with
  | .ok address => some { address, word }
  | .error _ => none

/-- What a decoded instruction stores by itself. -/
def storeBy? (instruction : Instruction) (base : Word) : Option Store :=
  match instruction.opcode.effect? instruction.operands.values with
  | some (.write word) => storeOf? instruction base word
  | _ => none

/-- What the next instruction of a running machine stores by itself. -/
def store? (machine : Machine) : Option Store :=
  match (Instruction.decode machine.memory machine.base machine.pointer).2 with
  | .error _ => none
  | .ok instruction => storeBy? instruction machine.base

/-- What a machine that stopped before `instruction` stores of what its input source answers. -/
def delivery? (machine : Machine) (instruction : Instruction) : Offer → Option Store
  | .value word => storeOf? instruction machine.base word
  | .disconnected | .exhausted => none

/-- Steps up to and including the first one with an outcome, and what they store. -/
inductive Advances : Machine → List Store → Outcome → Machine → Prop
  | report {machine after : Machine} {outcome : Outcome}
      (stepped : machine.step = (after, some outcome)) :
      Advances machine machine.store?.toList outcome after
  | silent {machine middle after : Machine} {outcome : Outcome} {stores : List Store}
      (stepped : machine.step = (middle, none)) (advances : Advances middle stores outcome after) :
      Advances machine (machine.store?.toList ++ stores) outcome after

theorem storeOf?_lt (stored : storeOf? instruction base word = some store) :
    store.address < addressLimit := by
  cases destination : instruction.operands.destination with
  | none =>
      simp only [storeOf?, destinationOf, destination] at stored
      cases stored
  | some place =>
      rw [storeOf?, destinationOf_eq destination] at stored
      by_cases negative : placeOf place.mode place.raw base < 0
      · rw [if_pos negative] at stored
        cases stored
      · rw [if_neg negative] at stored
        cases stored
        have small := placeOf_lt place.mode place.raw base
        simp only [addressLimit]
        omega

theorem storeBy?_lt (stored : storeBy? instruction base = some store) :
    store.address < addressLimit := by
  unfold storeBy? at stored
  split at stored
  · exact storeOf?_lt stored
  · cases stored

theorem store?_lt (stored : machine.store? = some store) : store.address < addressLimit := by
  unfold store? at stored
  split at stored
  · cases stored
  · exact storeBy?_lt stored

theorem delivery?_lt (stored : machine.delivery? instruction offer = some store) :
    store.address < addressLimit := by
  cases offer with
  | value word => exact storeOf?_lt stored
  | disconnected | exhausted => cases stored

theorem execute_memory (machine : Machine) (instruction : Instruction) :
    (machine.execute instruction).1.memory =
      machine.memory.storeAll (storeBy? instruction machine.base).toList := by
  cases asked : instruction.opcode.effect? instruction.operands.values with
  | none =>
      simp only [execute, storeBy?, asked]
      rfl
  | some effect =>
      cases effect <;> simp only [execute, storeBy?, asked]
      case write word =>
        unfold storeOf?
        cases destinationOf instruction machine.base <;> rfl
      case jump target => cases Word.address? target <;> rfl
      all_goals rfl

theorem step_memory (machine : Machine) :
    machine.step.1.memory = machine.memory.storeAll machine.store?.toList := by
  cases decoded : Instruction.decode machine.memory machine.base machine.pointer with
  | mk pointer answer =>
      cases answer with
      | error fault =>
          simp only [step, store?, decoded]
          rfl
      | ok instruction =>
          simp only [step, store?, decoded]
          exact execute_memory _ _

theorem receive_memory (machine : Machine) (instruction : Instruction) (offer : Offer) :
    (machine.receive instruction offer).1.memory =
      machine.memory.storeAll (machine.delivery? instruction offer).toList := by
  cases offer with
  | disconnected | exhausted => rfl
  | value word =>
      simp only [receive, delivery?, storeOf?]
      cases destinationOf instruction machine.base <;> rfl

theorem Advances.memory (advances : machine.Advances stores outcome after) :
    after.memory = machine.memory.storeAll stores := by
  induction advances with
  | @report machine _ _ stepped =>
      have memory := step_memory machine
      rwa [stepped] at memory
  | @silent machine _ _ _ _ stepped _ ih =>
      have memory := step_memory machine
      rw [stepped] at memory
      rw [ih, memory, Memory.storeAll_append]

theorem Advances.lt (advances : machine.Advances stores outcome after) :
    ∀ store ∈ stores, store.address < addressLimit := by
  induction advances with
  | report =>
      intro store stored
      exact store?_lt (Option.mem_toList.mp stored)
  | silent _ _ ih =>
      intro store stored
      rcases List.mem_append.mp stored with first | later
      · exact store?_lt (Option.mem_toList.mp first)
      · exact ih store later

theorem exists_advances (settled : Settles step machine outcome after) :
    ∃ stores, machine.Advances stores outcome after := by
  induction settled with
  | report stepped => exact ⟨_, .report stepped⟩
  | silent stepped _ ih =>
      obtain ⟨stores, advances⟩ := ih
      exact ⟨_, .silent stepped advances⟩

end Machine

end Intcode
