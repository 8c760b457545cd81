import Intcode.Proofs.Instruction.Supplies
import Intcode.Proofs.Machine.Outcomes

namespace Intcode

def FaultKind.isNegativeAddress : FaultKind → Bool
  | negativeAddress _ => true
  | _ => false

theorem Opcode.eq_input_of_effect {opcode : Opcode} {values : List Word}
    (effect : opcode.effect? values = some .input) : opcode = .input := by
  unfold effect? at effect
  split at effect <;> first | rfl | cases effect | (split at effect <;> cases effect)

namespace Instruction

variable {memory : Memory} {base : Word} {pointer stop : Nat} {instruction : Instruction}
  {fault : Fault}

/-- The opcode that the cell at an address would be run as. -/
def opcodeAt? (memory : Memory) (address : Nat) : Option Opcode :=
  Opcode.ofCode? (InstructionWord.code (memory.get address))

theorem of_decode_ok (decoded : decode memory base pointer = (stop, .ok instruction)) :
    instruction.address = pointer ∧ opcodeAt? memory pointer = some instruction.opcode ∧
      (instruction.opcode = .input → instruction.operands.destination.isSome) := by
  obtain ⟨_, names, address, _⟩ := decode_eq_ok_iff.mp decoded
  refine ⟨address, InstructionWord.names_iff.mp names, fun input => ?_⟩
  rw [(decode_supplies decoded).destination, input]
  decide

theorem of_decode_error (decoded : decode memory base pointer = (stop, .error fault)) :
    fault.address = pointer ∧
      (opcodeAt? memory pointer = some .input → fault.kind.isNegativeAddress = false) := by
  refine ⟨(decode_eq_error_iff.mp decoded).1, fun input => ?_⟩
  obtain ⟨condition, asked, violated⟩ := exists_violates_of_decode decoded
  have plain (index : Nat) : condition ≠ .address .value index := by
    rintro rfl
    have names := InstructionWord.names_iff.mpr input
    obtain missing | missing | ⟨kind, place, found, asked⟩ := (mem_conditions_iff names).mp asked
    · cases missing
    · cases missing
    · have value : kind = .value := by
        simp only [Condition.ofParam, List.mem_cons, List.not_mem_nil, or_false] at asked
        rcases asked with other | other | same
        · cases other
        · cases other
        · cases same
          rfl
      have member := List.mem_of_getElem? found
      rw [value] at member
      exact absurd member (by decide)
  generalize fault.kind = kind at violated
  cases violated with
  | inside | opcode | present | mode | immediate => rfl
  | position | relative => exact absurd rfl (plain _)

end Instruction

namespace Machine

variable {start machine before after : Machine} {instruction : Instruction}
  {outcome : Outcome} {reason : Suspension} {fault : Fault} {offer : Offer}
  {taken written : List Word}

/-- What an instruction that reports something has done. It has changed nothing but the phase. -/
inductive Reports (machine : Machine) (instruction : Instruction) : Machine → Outcome → Prop
  | aboutToInput (takes : instruction.opcode = .input) :
      Reports machine instruction { machine with phase := .reading instruction } (.ok .aboutToInput)
  | aboutToOutput (word : Word) :
      Reports machine instruction { machine with phase := .writing word } (.ok .aboutToOutput)
  | halted : Reports machine instruction { machine with phase := .halted } (.ok .halted)
  | faulted (fault : Fault) (here : fault.address = instruction.address)
      (other : instruction.opcode ≠ .input) :
      Reports machine instruction { machine with phase := .faulted fault } (.error fault)

/-- A destination that is there fails only for its address. -/
theorem destinationOf_error {base : Word} (failed : destinationOf instruction base = .error fault) :
    fault.address = instruction.address ∧
      fault.kind.isNegativeAddress = instruction.operands.destination.isSome := by
  unfold destinationOf at failed
  split at failed <;> rename_i has
  · cases failed
    rw [has]
    exact ⟨rfl, rfl⟩
  · split at failed <;> cases failed
    rw [has]
    exact ⟨rfl, rfl⟩

theorem execute_reports (executed : machine.execute instruction = (after, some outcome)) :
    machine.Reports instruction after outcome := by
  cases asked : instruction.opcode.effect? instruction.operands.values with
  | none =>
      simp only [execute, asked, fail, Prod.map, id] at executed
      cases executed
      exact .faulted _ rfl fun input => by simp [input, Opcode.effect?] at asked
  | some effect =>
      cases effect <;> simp only [execute, asked, fail, Prod.map, id] at executed
      case write =>
        split at executed <;> rename_i resolved <;> cases executed
        exact .faulted _ (destinationOf_error resolved).1 fun input => by
          simp [input, Opcode.effect?] at asked
      case input =>
        cases executed
        exact .aboutToInput (Opcode.eq_input_of_effect asked)
      case output word =>
        cases executed
        exact .aboutToOutput word
      case jump =>
        split at executed <;> cases executed
        exact .faulted _ rfl fun input => by simp [input, Opcode.effect?] at asked
      case adjustBase => cases executed
      case halt =>
        cases executed
        exact .halted
      case idle => cases executed

theorem step_keeps (stepped : machine.step = (after, some outcome)) :
    after.memory = machine.memory ∧ after.base = machine.base := by
  unfold step at stepped
  split at stepped
  · cases stepped
    exact ⟨rfl, rfl⟩
  · cases execute_reports stepped <;> exact ⟨rfl, rfl⟩

/-- An instruction that fails by itself does so where the pointer stood, and is none that fails
for want of a cell for its input. -/
theorem step_fails (stepped : machine.step = (after, some (.error fault))) :
    fault.address = machine.pointer ∧
      (Instruction.opcodeAt? machine.memory machine.pointer = some .input →
        fault.kind.isNegativeAddress = false) := by
  unfold step at stepped
  split at stepped <;> rename_i decoded
  · cases stepped
    exact Instruction.of_decode_error decoded
  · obtain ⟨address, known, _⟩ := Instruction.of_decode_ok decoded
    cases execute_reports stepped with
    | faulted _ here other =>
        refine ⟨here.trans address, fun input => ?_⟩
        exact absurd (Option.some.inj (known.symm.trans input)) other

theorem step_announces (stepped : machine.step = (after, some outcome))
    (phase : after.phase = .reading instruction) :
    outcome = .ok .aboutToInput ∧ instruction.address = machine.pointer ∧
      Instruction.opcodeAt? machine.memory machine.pointer = some .input ∧
      instruction.operands.destination.isSome := by
  unfold step at stepped
  split at stepped <;> rename_i decoded
  · cases stepped
    cases phase
  · obtain ⟨address, known, destination⟩ := Instruction.of_decode_ok decoded
    cases execute_reports stepped with
    | aboutToInput takes =>
        cases phase
        exact ⟨rfl, address, takes ▸ known, destination takes⟩
    | aboutToOutput | halted | faulted => cases phase

/-- Input that fails changes no cell. A word that was there is lost for want of a cell. -/
theorem receive_fails (has : instruction.operands.destination.isSome)
    (received : machine.receive instruction offer = (after, .error fault)) :
    after = { machine with phase := .faulted fault } ∧ fault.address = instruction.address ∧
      (fault.kind.isNegativeAddress = true ↔ ∃ word, offer = .value word) := by
  cases offer with
  | disconnected | exhausted =>
      cases received
      simp [FaultKind.isNegativeAddress]
  | value word =>
      simp only [receive, fail] at received
      split at received <;> rename_i resolved <;> cases received
      obtain ⟨here, negative⟩ := destinationOf_error resolved
      exact ⟨rfl, here, iff_of_true (negative.trans has) ⟨word, rfl⟩⟩

/-- One whole instruction, with the words it takes and hands out. -/
inductive Completes (before : Machine) : List Word → List Word → Machine → Prop
  | internal {after : Machine} (stepped : before.step = (after, none)) :
      Completes before [] [] after
  | input {asked after : Machine} {instruction : Instruction} {word : Word}
      (stepped : before.step = (asked, some (.ok .aboutToInput)))
      (phase : asked.phase = .reading instruction)
      (received : asked.receive instruction (.value word) = (after, .ok .afterInput)) :
      Completes before [word] [] after
  | output {asked : Machine} {word : Word}
      (stepped : before.step = (asked, some (.ok .aboutToOutput)))
      (phase : asked.phase = .writing word) :
      Completes before [] [word] { asked with phase := .running }

/-- Whole instructions in a row, with all words taken and all words written. -/
inductive Executes (start : Machine) : List Word → List Word → Machine → Prop
  | start : Executes start [] [] start
  | complete {taken written inputs outputs : List Word} {before after : Machine}
      (executed : Executes start taken written before)
      (completes : before.Completes inputs outputs after) :
      Executes start (taken ++ inputs) (written ++ outputs) after

/-- The next instruction fails when it is offered this for input. -/
inductive Fails (machine : Machine) (offer : Offer) (fault : Fault) : Prop
  | alone {after : Machine} (stepped : machine.step = (after, some (.error fault))) :
      Fails machine offer fault
  | receiving {asked after : Machine} {instruction : Instruction}
      (stepped : machine.step = (asked, some (.ok .aboutToInput)))
      (phase : asked.phase = .reading instruction)
      (received : asked.receive instruction offer = (after, .error fault)) :
      Fails machine offer fault

/-- Up to the instruction that reports something, every instruction is complete by itself. -/
theorem Executes.settle (executed : start.Executes taken written before)
    (settled : Settles step before outcome after) :
    ∃ last, start.Executes taken written last ∧ last.step = (after, some outcome) := by
  induction settled with
  | report stepped => exact ⟨_, executed, stepped⟩
  | silent stepped _ ih =>
      apply ih
      simpa only [List.append_nil] using executed.complete (.internal stepped)

/-- Where the whole instructions have come when no instruction has failed: either all of them
are complete, or the next one has been announced. -/
inductive Underway (start : Machine) (taken written : List Word) (machine : Machine) : Prop
  | between (phase : machine.phase = .running) (executed : start.Executes taken written machine) :
      Underway start taken written machine
  | announced {last : Machine} {reason : Suspension}
      (executed : start.Executes taken written last)
      (stepped : last.step = (machine, some (.ok reason))) : Underway start taken written machine

theorem Underway.executes (underway : start.Underway taken written machine)
    (phase : machine.phase = .running) : start.Executes taken written machine := by
  cases underway with
  | between _ executed => exact executed
  | announced _ stepped =>
      have leaves := step_leaves stepped
      rw [phase] at leaves
      cases leaves

theorem Underway.last (underway : start.Underway taken written machine)
    (stopped : machine.phase ≠ .running) :
    ∃ last reason, start.Executes taken written last ∧
      last.step = (machine, some (.ok reason)) ∧ Outcome.Leaves (.ok reason) machine.phase := by
  cases underway with
  | between running => exact absurd running stopped
  | announced executed stepped => exact ⟨_, _, executed, stepped, step_leaves stepped⟩

theorem Underway.asked (underway : start.Underway taken written machine)
    (phase : machine.phase = .reading instruction) :
    ∃ last, start.Executes taken written last ∧
      last.step = (machine, some (.ok .aboutToInput)) := by
  obtain ⟨last, reason, executed, stepped, leaves⟩ := underway.last (by simp [phase])
  rw [phase] at leaves
  cases leaves
  exact ⟨last, executed, stepped⟩

theorem Underway.offered {word : Word} (underway : start.Underway taken written machine)
    (phase : machine.phase = .writing word) :
    ∃ last, start.Executes taken written last ∧
      last.step = (machine, some (.ok .aboutToOutput)) := by
  obtain ⟨last, reason, executed, stepped, leaves⟩ := underway.last (by simp [phase])
  rw [phase] at leaves
  cases leaves
  exact ⟨last, executed, stepped⟩

/-- What the last whole instruction left is what the one after it leaves, which fails. -/
structure Aborts (start : Machine) (taken written : List Word) (offer : Offer) (fault : Fault)
    (last after : Machine) : Prop where
  executed : start.Executes taken written last
  fails : last.Fails offer fault
  memory : after.memory = last.memory
  base : after.base = last.base
  address : fault.address = last.pointer

theorem Executes.aborts (executed : start.Executes taken written before)
    (settled : Settles step before (.error fault) after) (offer : Offer) :
    ∃ last, start.Aborts taken written offer fault last after ∧
      (Instruction.opcodeAt? after.memory fault.address = some .input →
        fault.kind.isNegativeAddress = false) := by
  obtain ⟨last, executed, stepped⟩ := executed.settle settled
  obtain ⟨memory, base⟩ := step_keeps stepped
  obtain ⟨address, other⟩ := step_fails stepped
  refine ⟨last, ⟨executed, .alone stepped, memory, base, address⟩, fun input => ?_⟩
  rw [memory, address] at input
  exact other input

theorem Underway.aborts (underway : start.Underway taken written machine)
    (phase : machine.phase = .reading instruction)
    (received : machine.receive instruction offer = (after, .error fault)) :
    ∃ last, start.Aborts taken written offer fault last after ∧
      Instruction.opcodeAt? after.memory fault.address = some .input ∧
      (fault.kind.isNegativeAddress = true ↔ ∃ word, offer = .value word) := by
  obtain ⟨last, executed, stepped⟩ := underway.asked phase
  obtain ⟨memory, base⟩ := step_keeps stepped
  obtain ⟨_, address, input, destination⟩ := step_announces stepped phase
  obtain ⟨rfl, here, negative⟩ := receive_fails destination received
  refine ⟨last, ⟨executed, .receiving stepped phase received, memory, base, here.trans address⟩,
    ?_, negative⟩
  rw [here, address, memory]
  exact input

end Machine

end Intcode
