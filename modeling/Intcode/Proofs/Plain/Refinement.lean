import Intcode.Proofs.Memory
import Intcode.Proofs.Opcode
import Intcode.Proofs.Plain.Operands
import Intcode.Proofs.Session.Reach

namespace Intcode

/-- Does an outcome only say what the next resume is going to do? -/
def Outcome.announces : Outcome → Bool
  | .ok .aboutToInput | .ok .aboutToOutput => true
  | _ => false

/-- The outcomes in which something has happened. -/
def Session.reports (outcomes : List Outcome) : List Outcome :=
  outcomes.filter fun outcome => !Outcome.announces outcome

namespace Plain

variable {session : Session} {plain : Plain}

/-- The session stands where the plain machine stands: every cell, the relative base, what
input is left, what was output, and unless an instruction failed the pointer. -/
structure Shows (session : Session) (plain : Plain) : Prop where
  memory : ∀ address, session.machine.memory.get address = plain.cells address
  size : session.machine.memory.size = plain.size
  base : session.machine.base = plain.base
  feed : session.ends.feed = plain.input.elim .disconnected .source
  sink : session.ends.sink = some id
  output : session.ends.outbox.toList = plain.output
  control : match plain.status with
    | .running => session.machine.phase = .running ∧ session.machine.pointer = plain.pointer
    | .halted => session.machine.phase = .halted ∧ session.machine.pointer = plain.pointer
    | .failed fault => session.machine.phase = .faulted fault

/-- One instruction of a session and of the plain machine. -/
inductive StepAgrees (session : Session) (plain : Plain) : Prop
  | silent {machine : Machine} {after : Plain}
      (stepped : session.machine.step = (machine, none)) (plainStepped : plain.step = (after, none))
      (running : after.status = .running) (shows : Shows { session with machine } after) :
      StepAgrees session plain
  | ended {machine : Machine} {after : Plain} {outcome : Outcome}
      (stepped : session.machine.step = (machine, some outcome))
      (plainStepped : plain.step = (after, some outcome))
      (happened : Outcome.announces outcome = false)
      (shows : Shows { session with machine } after) : StepAgrees session plain
  | exchanged {machine : Machine} {after : Plain} {announcement outcome : Outcome} {next : Session}
      (stepped : session.machine.step = (machine, some announcement))
      (announced : Outcome.announces announcement = true)
      (plainStepped : plain.step = (after, some outcome))
      (happened : Outcome.announces outcome = false)
      (resumed : ∀ fuel, Session.resume { session with machine } fuel = some (next, outcome))
      (shows : Shows next after) : StepAgrees session plain

theorem perform_unknown
    (unknown : Opcode.ofCode? (InstructionWord.code plain.word) = none) :
    plain.perform = .error (.invalidOpcode plain.word) := by
  have none (opcode : Opcode) : plain.word.toInt.tmod 100 ≠ opcode.code.toInt := by
    rw [← InstructionWord.toInt_code]
    intro same
    exact Opcode.code_ne_of_ofCode?_eq_none unknown opcode (Int64.toInt_inj.mp same.symm)
  unfold perform
  split <;> rename_i digits
  · exact absurd digits (none .add)
  · exact absurd digits (none .mul)
  · exact absurd digits (none .input)
  · exact absurd digits (none .output)
  · exact absurd digits (none .jumpTrue)
  · exact absurd digits (none .jumpFalse)
  · exact absurd digits (none .less)
  · exact absurd digits (none .equal)
  · exact absurd digits (none .adjustBase)
  · exact absurd digits (none .halt)
  · rfl

theorem tmod_of_code {opcode : Opcode}
    (known : Opcode.ofCode? (InstructionWord.code plain.word) = some opcode) :
    plain.word.toInt.tmod 100 = opcode.code.toInt := by
  rw [Opcode.ofCode?_eq_some_iff.mp known, InstructionWord.toInt_code]

theorem Shows.mirrors (shows : Shows session plain) (running : plain.status = .running) :
    Mirrors session.machine plain := by
  have control := shows.control
  rw [running] at control
  exact ⟨shows.memory, shows.size, shows.base, control.2⟩

theorem step_of_inside (running : plain.status = .running) (inside : plain.pointer < plain.size) :
    plain.step = plain.attempt plain.perform := by
  rw [step, running]
  simp only [inside, if_true]

/-- A failing instruction fails on both sides, with the same fault. -/
theorem agrees_of_fault {kind : FaultKind} {address stop : Nat} (shows : Shows session plain)
    (stands : address = plain.pointer)
    (stepped : session.machine.step =
      ({ session.machine with pointer := stop, phase := .faulted { kind, address } },
        some (.error { kind, address })))
    (plainStepped : plain.step = plain.fail kind) : StepAgrees session plain := by
  subst stands
  exact .ended stepped plainStepped rfl
    ⟨shows.memory, shows.size, shows.base, shows.feed, shows.sink, shows.output, rfl⟩

theorem agrees_of_store {destination : Destination} {instruction : Instruction} {word : Word}
    {width : Nat} (shows : Shows session plain) (running : plain.status = .running)
    (has : instruction.operands.destination = some destination)
    (stands : instruction.address = plain.pointer)
    (effect : instruction.opcode.effect? instruction.operands.values = some (.write word))
    (decoded : Instruction.decode session.machine.memory session.machine.base
      session.machine.pointer = (plain.pointer + width, .ok instruction))
    (plainStepped : plain.step =
      plain.store (placeOf destination.mode destination.raw session.machine.base) word width none) :
    StepAgrees session plain := by
  have stepped := Machine.step_ok decoded
  simp only [Machine.execute, effect, Machine.destinationOf_eq has] at stepped
  by_cases negative : placeOf destination.mode destination.raw session.machine.base < 0
  · simp only [negative, if_true] at stepped
    rw [store, if_pos negative] at plainStepped
    exact agrees_of_fault shows stands stepped plainStepped
  · simp only [negative, if_false] at stepped
    rw [store, if_neg negative] at plainStepped
    refine .silent stepped plainStepped running
      ⟨?_, ?_, shows.base, shows.feed, shows.sink, shows.output, ?_⟩
    · intro address
      simp only [Memory.get_set, Function.update_apply, shows.memory]
    · simp only [Memory.size_set, shows.size]
    · have control := shows.control
      rw [running] at control
      simp only [running]
      exact ⟨control.1, trivial⟩

section Opcodes

variable {opcode : Opcode} (shows : Shows session plain) (running : plain.status = .running)
  (inside : plain.pointer < plain.size)
  (known : Opcode.ofCode? (InstructionWord.code plain.word) = some opcode)

include shows running inside known

theorem agrees_of_operands_error {kind : FaultKind}
    (performed : plain.perform = .error kind)
    (read : (Instruction.readOperands session.machine.memory session.machine.base plain.word
      opcode.params 0 (plain.pointer + 1)).2 = .error kind) : StepAgrees session plain := by
  have mirrors := shows.mirrors running
  have within := mirrors.within inside
  have word := mirrors.word
  have failed : (Instruction.readOperands session.machine.memory session.machine.base
      (session.machine.memory.get session.machine.pointer) opcode.params 0
      (session.machine.pointer + 1)).2 = .error kind := by
    rw [word, mirrors.pointer]
    exact read
  obtain ⟨stop, decoded⟩ := Instruction.decode_error within (by rw [word]; exact known) failed
  refine agrees_of_fault shows mirrors.pointer (Machine.step_error decoded) ?_
  rw [step_of_inside running inside, performed, attempt]

theorem decode_of_operands {operands : Operands} {stop : Nat}
    (read : Instruction.readOperands session.machine.memory session.machine.base plain.word
      opcode.params 0 (plain.pointer + 1) = (stop, .ok operands)) :
    Instruction.decode session.machine.memory session.machine.base session.machine.pointer =
      (stop, .ok { opcode, address := plain.pointer, operands }) := by
  have mirrors := shows.mirrors running
  have within := mirrors.within inside
  have word := mirrors.word
  rw [← mirrors.pointer]
  exact Instruction.decode_ok within (by rw [word]; exact known)
    (by rw [word, mirrors.pointer]; exact read)

theorem agrees_of_compute {rule : Int → Int → Int}
    (params : opcode.params = [.value, .value, .destination])
    (performs : plain.perform = plain.compute rule)
    (effect : ∀ left right, opcode.effect? [left, right] =
      some (.write (Int64.ofInt (rule left.toInt right.toInt)))) : StepAgrees session plain := by
  rcases compute_agrees (shows.mirrors running) rule with
    ⟨kind, failed, read⟩ | ⟨left, right, destination, succeeded, read⟩
  · exact agrees_of_operands_error shows running inside known (performs.trans failed)
      (by rw [params]; exact read)
  · have decoded := decode_of_operands shows running inside known (by rw [params]; exact read)
    refine agrees_of_store shows running rfl rfl (effect left right) decoded ?_
    rw [step_of_inside running inside, performs, succeeded, attempt]

theorem agrees_of_jumpIf {condition : Int → Bool} (params : opcode.params = [.value, .value])
    (performs : plain.perform = plain.jumpIf condition)
    (effect : ∀ tested target, opcode.effect? [tested, target] =
      some (if condition tested.toInt then .jump target else .idle)) :
    StepAgrees session plain := by
  rcases jumpIf_agrees (shows.mirrors running) condition with
    ⟨kind, failed, read⟩ | ⟨tested, target, succeeded, read⟩
  · exact agrees_of_operands_error shows running inside known (performs.trans failed)
      (by rw [params]; exact read)
  · have stepped := Machine.step_ok
      (decode_of_operands shows running inside known (by rw [params]; exact read))
    have plainStepped : plain.step = plain.attempt (plain.jumpIf condition) := by
      rw [step_of_inside running inside, performs]
    have control := shows.control
    rw [running] at control
    rw [succeeded] at plainStepped
    simp only [Machine.execute, effect] at stepped
    by_cases taken : condition tested.toInt = true
    · by_cases negative : target.toInt < 0
      · simp only [taken, if_true, negative, attempt] at plainStepped
        simp only [taken, if_true, Word.address?_eq, negative] at stepped
        exact agrees_of_fault shows rfl stepped plainStepped
      · simp only [taken, if_true, negative, if_false, attempt] at plainStepped
        simp only [taken, if_true, Word.address?_eq, negative, if_false] at stepped
        refine .silent stepped plainStepped running
          ⟨shows.memory, shows.size, shows.base, shows.feed, shows.sink, shows.output, ?_⟩
        simp only [running]
        exact ⟨control.1, trivial⟩
    · simp only [taken, attempt, pass] at plainStepped
      simp only [taken] at stepped
      refine .silent stepped plainStepped running
        ⟨shows.memory, shows.size, shows.base, shows.feed, shows.sink, shows.output, ?_⟩
      simp only [running]
      exact ⟨control.1, trivial⟩

theorem agrees_of_take (params : opcode.params = [.destination])
    (performs : plain.perform = plain.take) (effect : opcode.effect? [] = some .input) :
    StepAgrees session plain := by
  rcases take_agrees (shows.mirrors running) with
    ⟨kind, failed, read⟩ | ⟨destination, succeeded, read⟩
  · exact agrees_of_operands_error shows running inside known (performs.trans failed)
      (by rw [params]; exact read)
  · have stepped := Machine.step_ok
      (decode_of_operands shows running inside known (by rw [params]; exact read))
    have plainStepped : plain.step = plain.attempt plain.take := by
      rw [step_of_inside running inside, performs]
    rw [succeeded] at plainStepped
    simp only [Machine.execute, effect] at stepped
    cases connected : plain.input with
    | none =>
        have read : session.ends.read = (.disconnected, session.ends) :=
          Endpoints.read_disconnected (by rw [shows.feed, connected, Option.elim_none])
        simp only [connected, attempt] at plainStepped
        refine .exchanged stepped rfl plainStepped rfl
          (fun fuel => Session.resume_reading rfl read rfl) ?_
        exact ⟨shows.memory, shows.size, shows.base, shows.feed, shows.sink, shows.output, rfl⟩
    | some source =>
        have read : session.ends.read =
            (.ofValue? source.next.1, { session.ends with feed := .source source.next.2 }) :=
          Endpoints.read_source (by rw [shows.feed, connected, Option.elim_some])
        cases supply : source.next.1 with
        | none =>
            simp only [connected, attempt, supply] at plainStepped
            rw [supply] at read
            refine .exchanged stepped rfl plainStepped rfl
              (fun fuel => Session.resume_reading rfl read rfl) ?_
            exact ⟨shows.memory, shows.size, shows.base, rfl, shows.sink, shows.output, rfl⟩
        | some word =>
            simp only [connected, attempt, supply] at plainStepped
            rw [supply] at read
            by_cases negative : placeOf destination.mode destination.raw session.machine.base < 0
            · rw [store, if_pos negative] at plainStepped
              refine .exchanged stepped rfl plainStepped rfl (fun fuel =>
                Session.resume_reading rfl read (Machine.receive_negative rfl negative)) ?_
              exact ⟨shows.memory, shows.size, shows.base, rfl, shows.sink, shows.output, rfl⟩
            · rw [store, if_neg negative] at plainStepped
              refine .exchanged stepped rfl plainStepped rfl (fun fuel =>
                Session.resume_reading rfl read (Machine.receive_inside rfl negative)) ?_
              refine ⟨?_, ?_, shows.base, rfl, shows.sink, shows.output, ?_⟩
              · intro address
                simp only [Memory.get_set, Function.update_apply, shows.memory]
              · simp only [Memory.size_set, shows.size]
              · simp only [running]
                exact ⟨trivial, trivial⟩

theorem agrees_of_give (params : opcode.params = [.value])
    (performs : plain.perform = plain.give)
    (effect : ∀ word, opcode.effect? [word] = some (.output word)) : StepAgrees session plain := by
  rcases value_bind_agrees (shows.mirrors running) fun word =>
    .ok ({ plain with output := plain.output ++ [word] }.pass 2 (some (.ok .afterOutput))) with
    ⟨kind, failed, read⟩ | ⟨word, succeeded, read⟩
  · exact agrees_of_operands_error shows running inside known (performs.trans failed)
      (by rw [params]; exact read)
  · have stepped := Machine.step_ok
      (decode_of_operands shows running inside known (by rw [params]; exact read))
    have plainStepped : plain.step = { plain with output := plain.output ++ [word] }.pass 2
        (some (.ok .afterOutput)) := by
      rw [step_of_inside running inside, performs, give]
      exact congrArg plain.attempt succeeded
    simp only [Machine.execute, effect] at stepped
    refine .exchanged stepped rfl plainStepped rfl (fun fuel => Session.resume_writing rfl)
      ⟨shows.memory, shows.size, shows.base, ?_, ?_, ?_, ?_⟩
    · rw [Endpoints.write_collected shows.sink]
      exact shows.feed
    · rw [Endpoints.write_collected shows.sink]
      exact shows.sink
    · rw [Endpoints.write_collected shows.sink, Array.toList_push, shows.output]
    · simp only [running]
      exact ⟨trivial, trivial⟩

theorem agrees_of_moveBase (params : opcode.params = [.value])
    (performs : plain.perform = plain.moveBase)
    (effect : ∀ word, opcode.effect? [word] = some (.adjustBase word)) :
    StepAgrees session plain := by
  rcases value_bind_agrees (shows.mirrors running) fun offset =>
    .ok ({ plain with base := Int64.ofInt (plain.base.toInt + offset.toInt) }.pass 2 none) with
    ⟨kind, failed, read⟩ | ⟨offset, succeeded, read⟩
  · exact agrees_of_operands_error shows running inside known (performs.trans failed)
      (by rw [params]; exact read)
  · have stepped := Machine.step_ok
      (decode_of_operands shows running inside known (by rw [params]; exact read))
    have plainStepped : plain.step =
        { plain with base := Int64.ofInt (plain.base.toInt + offset.toInt) }.pass 2 none := by
      rw [step_of_inside running inside, performs, moveBase]
      exact congrArg plain.attempt succeeded
    have control := shows.control
    rw [running] at control
    simp only [Machine.execute, effect] at stepped
    refine .silent stepped plainStepped running
      ⟨shows.memory, shows.size, ?_, shows.feed, shows.sink, shows.output, ?_⟩
    · simp only [shows.base, Int64.ofInt_add, Int64.ofInt_toInt]
    · simp only [running]
      exact ⟨control.1, trivial⟩

theorem agrees_of_halt (params : opcode.params = [])
    (performs : plain.perform =
      .ok ({ plain with status := .halted }.pass 1 (some (.ok .halted))))
    (effect : opcode.effect? [] = some .halt) : StepAgrees session plain := by
  have stepped := Machine.step_ok
    (decode_of_operands shows running inside known (by rw [params, Instruction.readOperands_nil]))
  have plainStepped : plain.step = { plain with status := .halted }.pass 1 (some (.ok .halted)) := by
    rw [step_of_inside running inside, performs, attempt]
  simp only [Machine.execute, effect] at stepped
  exact .ended stepped plainStepped rfl
    ⟨shows.memory, shows.size, shows.base, shows.feed, shows.sink, shows.output, rfl, rfl⟩

end Opcodes

/-- One instruction of a running session is one instruction of the plain machine. -/
theorem step_agrees (shows : Shows session plain) (running : plain.status = .running) :
    StepAgrees session plain := by
  have mirrors := shows.mirrors running
  by_cases inside : plain.pointer < plain.size
  · have within := mirrors.within inside
    have word := mirrors.word
    cases known : Opcode.ofCode? (InstructionWord.code plain.word) with
    | none =>
        have decoded : Instruction.decode session.machine.memory session.machine.base
            session.machine.pointer = (session.machine.pointer + 1,
              .error { kind := .invalidOpcode plain.word, address := session.machine.pointer }) := by
          rw [Instruction.decode_unknown within (by rw [word]; exact known), word]
        refine agrees_of_fault shows mirrors.pointer (Machine.step_error decoded) ?_
        rw [step_of_inside running inside, perform_unknown known, attempt]
    | some opcode =>
        have digits := tmod_of_code known
        cases opcode with
        | add =>
            refine agrees_of_compute shows running inside known rfl
              (by rw [perform, digits]; rfl) fun left right => ?_
            rw [Int64.ofInt_add, Int64.ofInt_toInt, Int64.ofInt_toInt]
            rfl
        | mul =>
            refine agrees_of_compute shows running inside known rfl
              (by rw [perform, digits]; rfl) fun left right => ?_
            rw [Int64.ofInt_mul, Int64.ofInt_toInt, Int64.ofInt_toInt]
            rfl
        | input =>
            exact agrees_of_take shows running inside known rfl (by rw [perform, digits]; rfl) rfl
        | output =>
            exact agrees_of_give shows running inside known rfl (by rw [perform, digits]; rfl)
              fun _ => rfl
        | jumpTrue =>
            refine agrees_of_jumpIf shows running inside known rfl
              (by rw [perform, digits]; rfl) fun tested target => ?_
            simp [Opcode.effect?, ← Int64.toInt_inj]
        | jumpFalse =>
            refine agrees_of_jumpIf shows running inside known rfl
              (by rw [perform, digits]; rfl) fun tested target => ?_
            simp [Opcode.effect?, ← Int64.toInt_inj]
        | less =>
            refine agrees_of_compute shows running inside known rfl
              (by rw [perform, digits]; rfl) fun left right => ?_
            by_cases below : left.toInt < right.toInt <;>
              simp [Opcode.effect?, Word.ofBool, Int64.lt_iff_toInt_lt, below]
        | equal =>
            refine agrees_of_compute shows running inside known rfl
              (by rw [perform, digits]; rfl) fun left right => ?_
            by_cases same : left.toInt = right.toInt <;>
              simp [Opcode.effect?, Word.ofBool, ← Int64.toInt_inj, same]
        | adjustBase =>
            exact agrees_of_moveBase shows running inside known rfl (by rw [perform, digits]; rfl)
              fun _ => rfl
        | halt =>
            exact agrees_of_halt shows running inside known rfl (by rw [perform, digits]; rfl) rfl
  · have past : session.machine.memory.size ≤ session.machine.pointer := by
      rw [mirrors.pointer, mirrors.size]
      exact Nat.not_lt.mp inside
    refine agrees_of_fault shows mirrors.pointer (Machine.step_error (Instruction.decode_pastEnd past)) ?_
    rw [step, running]
    simp only [inside, if_false]

end Plain

end Intcode
