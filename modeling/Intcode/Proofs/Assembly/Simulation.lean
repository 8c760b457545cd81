import Intcode.Proofs.Assembly.Control
import Intcode.Proofs.Assembly.Decoding
import Intcode.Proofs.Session.Reach

namespace Intcode.Assembly.Interpreter

open Layout

/-- The session stands where the interpreter stands. -/
structure Shows (items : List Item) (session : Session) (interpreter : Interpreter) : Prop where
  image : Image items interpreter.store session.machine.memory
  feed : session.ends.feed = interpreter.input.elim .disconnected .source
  sink : session.ends.sink = some id
  output : session.ends.outbox.toList = interpreter.output
  pointer : match interpreter.status with
    | .halted | .failed _ => True
    | _ => session.machine.pointer = addressOf items interpreter.next ∧ Clear items interpreter.next
  phase : match interpreter.status with
    | .running => session.machine.phase = .running
    | .reading name => ∃ instruction address, session.machine.phase = .reading instruction ∧
        varAt? items name = some address ∧
        instruction.operands.destination = some { mode := .position, raw := Int64.ofNat address }
    | .writing word => session.machine.phase = .writing word
    | .halted => session.machine.phase = .halted
    | .failed kind => ∃ address, session.machine.phase = .faulted { kind, address }

/-- One instruction of the machine and of the interpreter. -/
inductive StepAgrees (items : List Item) (session : Session) (interpreter : Interpreter) : Prop
  | silent {machine : Machine} {after : Interpreter}
      (stepped : session.machine.step = (machine, none))
      (interpreted : step items interpreter = (after, none)) (running : after.status = .running)
      (shows : Shows items { session with machine } after) : StepAgrees items session interpreter
  | reported {machine : Machine} {after : Interpreter} {outcome : Outcome}
      (stepped : session.machine.step = (machine, some outcome))
      (interpreted : step items interpreter = (after, some (outcome.mapError Fault.kind)))
      (shows : Shows items { session with machine } after) : StepAgrees items session interpreter

variable {items : List Item} {program : Program} {session : Session} {interpreter : Interpreter}
  {opcode : Opcode} {arguments : List Argument} {name : String} {word : Word}

/-- The session with control behind an instruction. -/
def passed (items : List Item) (session : Session) (index : Nat) : Session :=
  { session with machine := { session.machine with pointer := addressOf items index } }

/-- Control is at an instruction, on both sides, and passes it. -/
structure Meets (items : List Item) (session : Session) (interpreter : Interpreter)
    (opcode : Opcode) (arguments : List Argument) (behind : Nat) : Prop where
  stepped : session.machine.step = (passed items session behind).machine.execute
    { opcode,
      address := session.machine.pointer,
      operands := operandsOf items interpreter.store opcode.params arguments }
  interpreted : step items interpreter =
    perform items { interpreter with next := behind } opcode arguments
  proper : List.Forall₂ Argument.Fits opcode.params arguments
  resolved : ∀ argument ∈ arguments, Resolves items argument
  shows : opcode ≠ .halt → Shows items (passed items session behind)
    { interpreter with next := behind }

section Effects

variable {behind : Nat} (meets : Meets items session interpreter opcode arguments behind)
  (running : interpreter.status = .running)

include meets running

theorem agrees_of_write (fits : size items < 2 ^ 63) (continues : opcode ≠ .halt)
    (effect : opcode.effect? (operandsOf items interpreter.store opcode.params arguments).values =
      some (.write word))
    (has : (operandsOf items interpreter.store opcode.params arguments).destination =
      some { mode := .position, raw := wordOf items (.var name) })
    (known : (varAt? items name).isSome)
    (performed : perform items { interpreter with next := behind } opcode arguments =
      (assign { interpreter with next := behind } name word, none)) :
    StepAgrees items session interpreter := by
  obtain ⟨address, found⟩ := Option.isSome_iff_exists.mp known
  have small := Nat.lt_trans (varAt?_lt found) fits
  have shows := meets.shows continues
  have stepped := meets.stepped
  have goes : Machine.destinationOf
      { opcode,
        address := session.machine.pointer,
        operands := operandsOf items interpreter.store opcode.params arguments }
      (passed items session behind).machine.base = .ok address := by
    simp only [Machine.destinationOf, has, Destination.resolve, wordOf, found, Option.getD_some,
      resolveAddress_position small]
  simp only [Machine.execute, effect, goes] at stepped
  refine .silent stepped (meets.interpreted.trans performed) running ?_
  exact ⟨shows.image.set found word, shows.feed, shows.sink, shows.output, shows.pointer,
    shows.phase⟩

theorem agrees_of_idle (continues : opcode ≠ .halt)
    (effect : opcode.effect? (operandsOf items interpreter.store opcode.params arguments).values =
      some .idle)
    (performed : perform items { interpreter with next := behind } opcode arguments =
      ({ interpreter with next := behind }, none)) : StepAgrees items session interpreter := by
  have stepped := meets.stepped
  simp only [Machine.execute, effect] at stepped
  exact .silent stepped (meets.interpreted.trans performed) running (meets.shows continues)

theorem agrees_of_adjustBase (continues : opcode ≠ .halt)
    (effect : opcode.effect? (operandsOf items interpreter.store opcode.params arguments).values =
      some (.adjustBase word))
    (performed : perform items { interpreter with next := behind } opcode arguments =
      ({ interpreter with next := behind }, none)) : StepAgrees items session interpreter := by
  have shows := meets.shows continues
  have stepped := meets.stepped
  simp only [Machine.execute, effect] at stepped
  refine .silent stepped (meets.interpreted.trans performed) running ?_
  exact ⟨shows.image, shows.feed, shows.sink, shows.output, shows.pointer, shows.phase⟩

theorem agrees_of_jump (fits : size items < 2 ^ 63) (structured : Structured items)
    (continues : opcode ≠ .halt)
    (effect : opcode.effect? (operandsOf items interpreter.store opcode.params arguments).values =
      some (.jump (valueOf items interpreter.store (.label name))))
    (known : (labelAt? items name).isSome)
    (performed : perform items { interpreter with next := behind } opcode arguments =
      (goTo { interpreter with next := behind } items name, none)) :
    StepAgrees items session interpreter := by
  obtain ⟨address, found⟩ := Option.isSome_iff_exists.mp known
  obtain ⟨index, foundIndex, label, rfl⟩ := labelAt?_eq_some found
  have small := Nat.lt_of_le_of_lt (addressOf_le_size index) fits
  have natural := Int64.toInt_ofNat_of_lt small
  have target : Word.address? (valueOf items interpreter.store (.label name)) =
      some (addressOf items index) := by
    rw [valueOf, found, Option.getD_some, Word.address?_eq, natural, if_neg (by omega),
      Int.toNat_natCast]
  have shows := meets.shows continues
  have stepped := meets.stepped
  simp only [Machine.execute, effect, target] at stepped
  refine .silent stepped (meets.interpreted.trans performed) running ?_
  refine ⟨shows.image, shows.feed, shows.sink, shows.output, ?_, shows.phase⟩
  simp only [goTo, foundIndex, Option.getD_some, running]
  exact ⟨trivial, structured.clear_label label⟩

theorem agrees_of_output (continues : opcode ≠ .halt)
    (effect : opcode.effect? (operandsOf items interpreter.store opcode.params arguments).values =
      some (.output word))
    (performed : perform items { interpreter with next := behind } opcode arguments =
      ({ interpreter with next := behind, status := .writing word },
        some (.ok .aboutToOutput))) : StepAgrees items session interpreter := by
  have shows := meets.shows continues
  have pointer := shows.pointer
  have stepped := meets.stepped
  simp only [Machine.execute, effect] at stepped
  simp only [running] at pointer
  refine .reported stepped (meets.interpreted.trans performed) ?_
  exact ⟨shows.image, shows.feed, shows.sink, shows.output, pointer, rfl⟩

theorem agrees_of_input (continues : opcode ≠ .halt)
    (effect : opcode.effect? (operandsOf items interpreter.store opcode.params arguments).values =
      some .input)
    (has : (operandsOf items interpreter.store opcode.params arguments).destination =
      some { mode := .position, raw := wordOf items (.var name) })
    (known : (varAt? items name).isSome)
    (performed : perform items { interpreter with next := behind } opcode arguments =
      ({ interpreter with next := behind, status := .reading name },
        some (.ok .aboutToInput))) : StepAgrees items session interpreter := by
  obtain ⟨address, found⟩ := Option.isSome_iff_exists.mp known
  have shows := meets.shows continues
  have pointer := shows.pointer
  have stepped := meets.stepped
  simp only [Machine.execute, effect] at stepped
  simp only [running] at pointer
  rw [wordOf, found, Option.getD_some] at has
  refine .reported stepped (meets.interpreted.trans performed) ?_
  exact ⟨shows.image, shows.feed, shows.sink, shows.output, pointer, _, address, rfl, found, has⟩

end Effects

theorem agrees_of_halt {index : Nat} (shows : Shows items session interpreter)
    (meets : Meets items session interpreter .halt [] index) :
    StepAgrees items session interpreter :=
  .reported meets.stepped meets.interpreted
    ⟨shows.image, shows.feed, shows.sink, shows.output, trivial, rfl⟩

theorem fits_three (proper : List.Forall₂ Argument.Fits [.value, .value, .destination] arguments) :
    ∃ left right name, arguments = [left, right, .var name] := by
  match arguments, proper with
  | [left, right, .var name], _ => exact ⟨left, right, name, rfl⟩

theorem fits_destination (proper : List.Forall₂ Argument.Fits [.destination] arguments) :
    ∃ name, arguments = [.var name] := by
  match arguments, proper with
  | [.var name], _ => exact ⟨name, rfl⟩

theorem fits_two (proper : List.Forall₂ Argument.Fits [.value, .value] arguments) :
    ∃ left right, arguments = [left, right] := by
  match arguments, proper with
  | [left, right], _ => exact ⟨left, right, rfl⟩

theorem fits_one (proper : List.Forall₂ Argument.Fits [.value] arguments) :
    ∃ argument, arguments = [argument] := by
  match arguments, proper with
  | [argument], _ => exact ⟨argument, rfl⟩

theorem meets_of_fetch {slots : Vector Argument maxArity} {stands : Nat}
    (assembled : Assembled items program) (structured : Structured items)
    (shows : Shows items session interpreter) (running : interpreter.status = .running)
    (instruction : items[stands]? = some (.instruction opcode slots))
    (fetched : fetch? items interpreter.next =
      some (opcode, (Item.instruction opcode slots).arguments, stands + 1))
    (here : addressOf items interpreter.next = addressOf items stands) :
    Meets items session interpreter opcode (Item.instruction opcode slots).arguments
      (stands + 1) := by
  have member := List.mem_of_getElem? instruction
  have behind : addressOf items (stands + 1) = addressOf items stands + opcode.width :=
    addressOf_succ instruction
  have pointer := shows.pointer
  have phase := shows.phase
  simp only [running] at pointer phase
  have stands : session.machine.pointer = addressOf items stands := pointer.1.trans here
  refine ⟨?_, ?_, assembled.proper _ member, assembled.resolved _ member, ?_⟩
  · have decoded := decode_eq assembled shows.image instruction session.machine.base
    rw [← behind, ← stands] at decoded
    exact Machine.step_ok decoded
  · simp only [step, running, fetched]
  · intro continues
    refine ⟨shows.image, shows.feed, shows.sink, shows.output, ?_, ?_⟩
    · simp only [running]
      exact ⟨rfl, structured.clear_succ instruction continues⟩
    · simp only [running]
      exact phase

theorem agrees_of_pastEnd (shows : Shows items session interpreter)
    (running : interpreter.status = .running) (fetched : fetch? items interpreter.next = none)
    (ends : addressOf items interpreter.next = size items) :
    StepAgrees items session interpreter := by
  have pointer := shows.pointer
  simp only [running] at pointer
  have past : session.machine.memory.size ≤ session.machine.pointer := by
    rw [shows.image.size, pointer.1, ends]
  have interpreted : step items interpreter = interpreter.fail .pastEnd := by
    simp only [step, running, fetched]
  refine .reported (Machine.step_error (Instruction.decode_pastEnd past)) interpreted ?_
  exact ⟨shows.image, shows.feed, shows.sink, shows.output, trivial, _, rfl⟩

/-- Every step of a running session is a step of the interpreter. -/
theorem step_agrees (assembled : Assembled items program) (structured : Structured items)
    (shows : Shows items session interpreter) (running : interpreter.status = .running) :
    StepAgrees items session interpreter := by
  have fits := assembled.fits
  have pointer := shows.pointer
  simp only [running] at pointer
  cases pointer.2.fetches with
  | pastEnd fetched ends => exact agrees_of_pastEnd shows running fetched ends
  | @found opcode slots stands instruction fetched here =>
      have meets := meets_of_fetch assembled structured shows running instruction fetched here
      have jumps := structured.jumps opcode slots (List.mem_of_getElem? instruction)
      have proper := meets.proper
      have resolved := meets.resolved
      generalize (Item.instruction opcode slots).arguments = arguments at *
      cases opcode with
      | add =>
          obtain ⟨left, right, name, rfl⟩ := fits_three proper
          exact agrees_of_write meets running fits (by decide) rfl rfl
            (resolved (.var name) (by simp)) rfl
      | mul =>
          obtain ⟨left, right, name, rfl⟩ := fits_three proper
          exact agrees_of_write meets running fits (by decide) rfl rfl
            (resolved (.var name) (by simp)) rfl
      | less =>
          obtain ⟨left, right, name, rfl⟩ := fits_three proper
          refine agrees_of_write meets running fits (by decide) rfl rfl
            (resolved (.var name) (by simp)) ?_
          simp [perform, Word.ofBool]
      | equal =>
          obtain ⟨left, right, name, rfl⟩ := fits_three proper
          refine agrees_of_write meets running fits (by decide) rfl rfl
            (resolved (.var name) (by simp)) ?_
          simp [perform, Word.ofBool]
      | input =>
          obtain ⟨name, rfl⟩ := fits_destination proper
          exact agrees_of_input meets running (by decide) rfl rfl
            (resolved (.var name) (by simp)) rfl
      | output =>
          obtain ⟨argument, rfl⟩ := fits_one proper
          exact agrees_of_output meets running (by decide) rfl rfl
      | jumpTrue =>
          obtain ⟨tested, target, rfl⟩ := fits_two proper
          obtain ⟨name, label⟩ := jumps (.inl rfl)
          cases label
          by_cases zero : valueOf items interpreter.store tested = 0
          · exact agrees_of_idle meets running (by decide)
              (by simp [Opcode.effect?, operandsOf, Opcode.params, zero]) (by simp [perform, zero])
          · exact agrees_of_jump meets running fits structured (by decide)
              (by simp [Opcode.effect?, operandsOf, Opcode.params, zero])
              (resolved (.label name) (by simp)) (by simp [perform, zero])
      | jumpFalse =>
          obtain ⟨tested, target, rfl⟩ := fits_two proper
          obtain ⟨name, label⟩ := jumps (.inr rfl)
          cases label
          by_cases zero : valueOf items interpreter.store tested = 0
          · exact agrees_of_jump meets running fits structured (by decide)
              (by simp [Opcode.effect?, operandsOf, Opcode.params, zero])
              (resolved (.label name) (by simp)) (by simp [perform, zero])
          · exact agrees_of_idle meets running (by decide)
              (by simp [Opcode.effect?, operandsOf, Opcode.params, zero]) (by simp [perform, zero])
      | adjustBase =>
          obtain ⟨argument, rfl⟩ := fits_one proper
          exact agrees_of_adjustBase meets running (by decide) rfl rfl
      | halt =>
          cases proper
          exact agrees_of_halt shows meets

end Intcode.Assembly.Interpreter
