import Intcode.Proofs.Instruction.Supplies
import Intcode.Proofs.Wiring.Absorption

namespace Intcode

/-- The instruction that a machine is in the middle of has its operands, and it has not failed for
want of one. -/
def Phase.Furnished : Phase → Prop
  | .reading instruction =>
      instruction.operands.Supplies instruction.opcode.params ∧
        instruction.opcode.effect? instruction.operands.values = some .input
  | .faulted fault => fault.kind.lacksOperand = false
  | .running | .writing _ | .halted => True

variable {World : Type} {ports : Ports (StateM World)} {fuel : Nat} {machine after : Machine}
  {instruction : Instruction} {outcome : Outcome} {fault : Fault} {offer : Offer}
  {world left : World} {place final : Place World}
  {pauses : List (Pause World)} {rig before next : Rig World}
  {record : Deed World × List Outcome} {history : List (Deed World × List Outcome)}

theorem Outcome.Stands.lacksOperand (stands : Outcome.Stands (.error fault) machine.phase)
    (furnished : machine.phase.Furnished) : fault.kind.lacksOperand = false := by
  generalize machine.phase = phase at stands furnished
  cases stands with
  | faulted => exact furnished

namespace Machine

theorem lacksOperand_of_destinationOf {base : Word} (has : instruction.operands.destination.isSome)
    (failed : destinationOf instruction base = .error fault) :
    fault.kind.lacksOperand = false := by
  obtain ⟨destination, has⟩ := Option.isSome_iff_exists.mp has
  rw [destinationOf_eq has] at failed
  split at failed <;> cases failed
  rfl

theorem execute_furnishes (supplies : instruction.operands.Supplies instruction.opcode.params)
    (executed : machine.execute instruction = (after, some outcome)) :
    after.phase.Furnished := by
  obtain ⟨effect, asked⟩ := Option.isSome_iff_exists.mp
    (Opcode.isSome_effect?_iff.mpr supplies.values.ge)
  simp only [execute, asked, fail, Prod.map, id] at executed
  cases effect with
  | write word =>
      have has := supplies.destination.mpr (Opcode.destination_mem_params asked rfl)
      dsimp only at executed
      split at executed <;> rename_i resolved <;> cases executed
      exact lacksOperand_of_destinationOf has resolved
  | input =>
      cases executed
      exact ⟨supplies, asked⟩
  | jump target =>
      dsimp only at executed
      split at executed <;> cases executed
      rfl
  | output | halt =>
      cases executed
      trivial
  | adjustBase | idle => cases executed

/-- An instruction leaves a machine furnished whatever stood there before. -/
theorem step_furnishes (stepped : machine.step = (after, some outcome)) :
    after.phase.Furnished := by
  unfold step at stepped
  split at stepped <;> rename_i decoded
  · cases stepped
    exact Instruction.lacksOperand_of_decode decoded
  · exact execute_furnishes (Instruction.decode_supplies decoded) stepped

theorem advance_furnishes (advanced : machine.advance fuel = some (after, outcome)) :
    after.phase.Furnished := by
  obtain ⟨last, stepped⟩ := exists_last_step advanced
  exact step_furnishes stepped

theorem receive_furnishes (has : instruction.operands.destination.isSome)
    (received : machine.receive instruction offer = (after, outcome)) :
    after.phase.Furnished := by
  cases offer with
  | disconnected | exhausted =>
      cases received
      rfl
  | value word =>
      simp only [receive, fail] at received
      split at received <;> rename_i resolved <;> cases received
      · exact lacksOperand_of_destinationOf has resolved
      · trivial

theorem resume_furnishes (furnished : machine.phase.Furnished)
    (resumed : (machine.resume ports fuel).run world = (some (after, outcome), left)) :
    after.phase.Furnished := by
  cases phase : machine.phase with
  | running =>
      rw [resume_running phase] at resumed
      exact advance_furnishes (congrArg Prod.fst resumed)
  | reading instruction =>
      rw [phase] at furnished
      obtain ⟨supplies, asked⟩ := furnished
      have has := supplies.destination.mpr (Opcode.destination_mem_params asked rfl)
      simp only [resume, phase] at resumed
      exact receive_furnishes has (Option.some.inj (congrArg Prod.fst resumed))
  | writing word =>
      simp only [resume, phase] at resumed
      cases resumed
      trivial
  | halted | faulted =>
      have finished : machine.isOver = true := by rw [isOver, phase]
      obtain ⟨rfl, _⟩ := resume_keeps finished resumed
      exact furnished

theorem lacksOperand_of_verdict? (furnished : machine.phase.Furnished)
    (verdict : machine.verdict? = some (.error fault)) : fault.kind.lacksOperand = false := by
  rw [verdict?] at verdict
  generalize machine.phase = phase at furnished verdict
  cases phase with
  | faulted =>
      cases verdict
      exact furnished
  | running | reading | writing | halted => cases verdict

end Machine

theorem Ports.furnishes (furnished : place.machine.phase.Furnished)
    (reached : Reaches ports.Passes place pauses final) : final.machine.phase.Furnished := by
  induction reached with
  | start => exact furnished
  | move _ passes ih =>
      obtain ⟨_, _, fuel, resumed⟩ := passes
      exact Machine.resume_furnishes ih resumed

namespace Rig

theorem Does.furnishes (furnished : before.machine.phase.Furnished)
    (does : before.Does record next) : next.machine.phase.Furnished := by
  rcases does.delivers_or_aside with ⟨_, _, delivers⟩ | ⟨same, _⟩
  · exact Ports.furnishes furnished delivers.reached
  · rwa [same]

theorem furnishes (furnished : before.machine.phase.Furnished)
    (reached : Reaches Rig.Does before history rig) : rig.machine.phase.Furnished := by
  induction reached with
  | start => exact furnished
  | move _ does ih => exact does.furnishes ih

/-- What is decoded has a value for each value parameter of its opcode and a destination just if
one is asked for, never an immediate one, and so its effect can be told. Wherever a machine comes,
whatever is done to it and around it, an instruction that waits for input is of this kind, and
neither a call that was made nor a run from there fails for want of an operand. -/
theorem decoding_supplies_what_execution_needs (program : Program) (wiring : Wiring World)
    (world : World) :
    (∀ memory base pointer stop instruction,
      Instruction.decode memory base pointer = (stop, .ok instruction) →
      instruction.operands.Supplies instruction.opcode.params ∧
      (instruction.opcode.effect? instruction.operands.values).isSome) ∧
    ∀ history rig, Reaches Rig.Does ⟨⟨.ofProgram program, world⟩, wiring⟩ history rig →
      (∀ instruction, rig.machine.phase = .reading instruction →
        instruction.operands.Supplies instruction.opcode.params ∧
        instruction.opcode.effect? instruction.operands.values = some .input) ∧
      (∀ record ∈ history, ∀ fault, .error fault ∈ record.2 → fault.kind.lacksOperand = false) ∧
      ∀ fuel fault left,
        (rig.machine.run rig.wiring.ports (fun _ => pure ()) fuel).run rig.world =
          (some (.error fault), left) → fault.kind.lacksOperand = false := by
  refine ⟨fun memory base pointer stop instruction decoded => ?_, fun history rig reached => ?_⟩
  · have supplies := Instruction.decode_supplies decoded
    exact ⟨supplies, Opcode.isSome_effect?_iff.mpr supplies.values.ge⟩
  · have fresh : (Machine.ofProgram program).phase.Furnished := trivial
    have furnished := furnishes fresh reached
    refine ⟨fun instruction phase => ?_, fun record member fault said => ?_,
      fun fuel fault left ran => ?_⟩
    · rwa [phase] at furnished
    · have stands := stands_of_reaches reached (.inr ⟨fault, rfl⟩) ⟨record, member, said⟩
      exact stands.lacksOperand furnished
    · obtain ⟨pauses, after, passed, verdict⟩ := Ports.reaches_of_run ran
      have stopped : after.phase.Furnished := Ports.furnishes furnished passed
      exact Machine.lacksOperand_of_verdict? stopped verdict

/-- An instruction for input that the program has written itself has its destination. -/
theorem written_input_is_supplied :
    let written : Instruction := ⟨.input, 4, { destination := some ⟨.relative, 5⟩ }⟩
    (Operands.Supplies written.operands [.destination] ∧
      written.opcode.effect? written.operands.values = some .input) ∧
    FaultKind.lacksOperand .inputExhausted = false := by
  intro written
  obtain ⟨_, runs⟩ := decoding_supplies_what_execution_needs
    ⟨[1101, 200, 3, 4, 0, 5, 99]⟩ Wiring.collecting ([], [])
  have reached := reaches_of_performAll (show Deed.performAll 2
    ⟨⟨.ofProgram ⟨[1101, 200, 3, 4, 0, 5, 99]⟩, [], []⟩, Wiring.collecting⟩ [.drive .resume] =
      some (⟨⟨{ memory := (Memory.ofProgram ⟨[1101, 200, 3, 4, 0, 5, 99]⟩).set 4 203, pointer := 6,
                phase := .reading written }, [], []⟩, Wiring.collecting⟩,
        [[.ok .aboutToInput]]) from rfl)
  obtain ⟨waits, _, ran⟩ := runs _ _ reached
  exact ⟨waits written rfl, ran 1 ⟨.inputExhausted, 4⟩ ([], []) rfl⟩

end Rig

end Intcode
