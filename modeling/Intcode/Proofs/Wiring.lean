import Intcode.Proofs.Machine.Outcomes
import Intcode.Proofs.Runs
import Intcode.Session

namespace Intcode

/-! # Wirings

A wiring is what a machine is connected to: a source and a sink, either of which may be
missing. Both act on a world of which nothing is known, so a queue, a pipe that somebody
fills, a counter and a sink that feeds the source are all wirings. What a machine does at
its wiring is read off a record of the calls.
-/

/-- One use of a source or a sink. -/
inductive Call where
  /-- The source was read and had this to give, if anything. -/
  | read (answer : Option Word)
  | write (word : Word)

structure Wiring (World : Type) where
  source : Option (World → Option Word × World)
  sink : Option (Word → World → World)

/-- Where a resume leaves a machine: what it answered, and what it called for. -/
structure Stop where
  outcome : Outcome
  calls : List Call
  after : Machine

namespace Stop

/-- What the source answered on the way to a stop. -/
def reads (stop : Stop) : List (Option Word) :=
  stop.calls.filterMap fun
    | .read answer => some answer
    | .write _ => none

/-- What was written to the sink on the way to a stop. -/
def writes (stop : Stop) : List Word :=
  stop.calls.filterMap fun
    | .read _ => none
    | .write word => some word

end Stop

namespace Wiring

variable {World : Type}

def ports (wiring : Wiring World) : Ports (StateM World) where
  read :=
    match wiring.source with
    | none => pure .disconnected
    | some take => modifyGet fun world => (.ofValue? (take world).1, (take world).2)
  write word :=
    match wiring.sink with
    | none => pure ()
    | some give => modify (give word)

/-- The same wiring, with a record of its calls beside the world. -/
def recorded (wiring : Wiring World) : Wiring (World × List Call) where
  source := wiring.source.map fun take (world, calls) =>
    ((take world).1, (take world).2, calls ++ [.read (take world).1])
  sink := wiring.sink.map fun give word (world, calls) => (give word world, calls ++ [.write word])

/-- A source that takes the oldest word out of a queue. The sink may be any, also one that adds
to that queue. -/
def queued {Rest : Type} (sink : Option (Word → List Word × Rest → List Word × Rest)) :
    Wiring (List Word × Rest) where
  source := some fun (queue, rest) => (queue.head?, queue.tail, rest)
  sink

/-- A queue to read from, and a row of all that is written. -/
def collecting : Wiring (List Word × List Word) :=
  queued (some fun word (queue, written) => (queue, written ++ [word]))

/-- A resume that answers, from the world it finds to the world it leaves. -/
def Resumes (wiring : Wiring World) (machine : Machine) (world : World) (stop : Stop)
    (left : World) : Prop :=
  ∃ fuel, (machine.resume wiring.recorded.ports fuel).run (world, []) =
    (some (stop.after, stop.outcome), left, stop.calls)

/-- A resume in some world. Rows of these leave open what happens to the world between one
resume and the next. -/
def Visits (wiring : Wiring World) (before : Machine) (stop : Stop) (after : Machine) : Prop :=
  stop.after = after ∧ ∃ world left, wiring.Resumes before world stop left

/-- All that a resume can come to. -/
inductive Continues (wiring : Wiring World) (machine : Machine) (world : World) :
    Stop → World → Prop
  | advanced {fuel : Nat} {after : Machine} {outcome : Outcome} (phase : machine.phase = .running)
      (advanced : machine.advance fuel = some (after, outcome)) :
      Continues wiring machine world ⟨outcome, [], after⟩ world
  | unfed {instruction : Instruction} {after : Machine} {outcome : Outcome}
      (phase : machine.phase = .reading instruction) (missing : wiring.source = none)
      (received : machine.receive instruction .disconnected = (after, outcome)) :
      Continues wiring machine world ⟨outcome, [], after⟩ world
  | fed {instruction : Instruction} {take : World → Option Word × World} {after : Machine}
      {outcome : Outcome}
      (phase : machine.phase = .reading instruction) (connected : wiring.source = some take)
      (received : machine.receive instruction (.ofValue? (take world).1) = (after, outcome)) :
      Continues wiring machine world ⟨outcome, [.read (take world).1], after⟩ (take world).2
  | dropped {word : Word} (phase : machine.phase = .writing word) (missing : wiring.sink = none) :
      Continues wiring machine world ⟨.ok .afterOutput, [], { machine with phase := .running }⟩ world
  | wrote {word : Word} {give : Word → World → World} (phase : machine.phase = .writing word)
      (connected : wiring.sink = some give) :
      Continues wiring machine world
        ⟨.ok .afterOutput, [.write word], { machine with phase := .running }⟩ (give word world)
  | halted (phase : machine.phase = .halted) :
      Continues wiring machine world ⟨.ok .halted, [], machine⟩ world
  | faulted {fault : Fault} (phase : machine.phase = .faulted fault) :
      Continues wiring machine world ⟨.error fault, [], machine⟩ world

section Resume

variable {wiring : Wiring World} {machine : Machine} {world left : World} {stop : Stop} {fuel : Nat}

theorem resume_running (phase : machine.phase = .running) :
    (machine.resume wiring.recorded.ports fuel).run (world, []) =
      (machine.advance fuel, world, []) := by
  simp only [Machine.resume, phase]
  rfl

theorem resume_unfed {instruction : Instruction} (phase : machine.phase = .reading instruction)
    (missing : wiring.source = none) :
    (machine.resume wiring.recorded.ports fuel).run (world, []) =
      (some (machine.receive instruction .disconnected), world, []) := by
  simp only [Machine.resume, phase, ports, recorded, missing]
  rfl

theorem resume_fed {instruction : Instruction} {take : World → Option Word × World}
    (phase : machine.phase = .reading instruction) (connected : wiring.source = some take) :
    (machine.resume wiring.recorded.ports fuel).run (world, []) =
      (some (machine.receive instruction (.ofValue? (take world).1)), (take world).2,
        [.read (take world).1]) := by
  simp only [Machine.resume, phase, ports, recorded, connected]
  rfl

theorem resume_dropped {word : Word} (phase : machine.phase = .writing word)
    (missing : wiring.sink = none) :
    (machine.resume wiring.recorded.ports fuel).run (world, []) =
      (some ({ machine with phase := .running }, .ok .afterOutput), world, []) := by
  simp only [Machine.resume, phase, ports, recorded, missing]
  rfl

theorem resume_wrote {word : Word} {give : Word → World → World}
    (phase : machine.phase = .writing word) (connected : wiring.sink = some give) :
    (machine.resume wiring.recorded.ports fuel).run (world, []) =
      (some ({ machine with phase := .running }, .ok .afterOutput), give word world,
        [.write word]) := by
  simp only [Machine.resume, phase, ports, recorded, connected]
  rfl

theorem resume_halted (phase : machine.phase = .halted) :
    (machine.resume wiring.recorded.ports fuel).run (world, []) =
      (some (machine, .ok .halted), world, []) := by
  simp only [Machine.resume, phase]
  rfl

theorem resume_faulted {fault : Fault} (phase : machine.phase = .faulted fault) :
    (machine.resume wiring.recorded.ports fuel).run (world, []) =
      (some (machine, .error fault), world, []) := by
  simp only [Machine.resume, phase]
  rfl

/-- The record takes no part in what is recorded. -/
theorem resume_recorded :
    (machine.resume wiring.ports fuel).run world =
      let (answer, left, _) := (machine.resume wiring.recorded.ports fuel).run (world, [])
      (answer, left) := by
  cases phase : machine.phase with
  | running | halted | faulted =>
      simp only [Machine.resume, phase]
      rfl
  | reading instruction =>
      simp only [Machine.resume, phase, ports, recorded]
      cases wiring.source <;> rfl
  | writing word =>
      simp only [Machine.resume, phase, ports, recorded]
      cases wiring.sink <;> rfl

theorem Resumes.continues (resumed : wiring.Resumes machine world stop left) :
    wiring.Continues machine world stop left := by
  obtain ⟨fuel, resumed⟩ := resumed
  obtain ⟨outcome, calls, after⟩ := stop
  cases phase : machine.phase with
  | running =>
      rw [resume_running phase] at resumed
      cases advanced : machine.advance fuel with
      | none =>
          rw [advanced] at resumed
          cases resumed
      | some answer =>
          rw [advanced] at resumed
          cases resumed
          exact .advanced phase advanced
  | reading instruction =>
      cases connected : wiring.source with
      | none =>
          rw [resume_unfed phase connected] at resumed
          cases received : machine.receive instruction .disconnected
          rw [received] at resumed
          cases resumed
          exact .unfed phase connected received
      | some take =>
          rw [resume_fed phase connected] at resumed
          cases received : machine.receive instruction (.ofValue? (take world).1)
          rw [received] at resumed
          cases resumed
          exact .fed phase connected received
  | writing word =>
      cases connected : wiring.sink with
      | none =>
          rw [resume_dropped phase connected] at resumed
          cases resumed
          exact .dropped phase connected
      | some give =>
          rw [resume_wrote phase connected] at resumed
          cases resumed
          exact .wrote phase connected
  | halted =>
      rw [resume_halted phase] at resumed
      cases resumed
      exact .halted phase
  | faulted fault =>
      rw [resume_faulted phase] at resumed
      cases resumed
      exact .faulted phase

theorem resumes_of_resume (fuel : Nat) {outcome : Outcome} {calls : List Call} {after : Machine}
    (resumed : (machine.resume wiring.recorded.ports fuel).run (world, []) =
      (some (after, outcome), left, calls)) :
    wiring.Resumes machine world ⟨outcome, calls, after⟩ left :=
  ⟨fuel, resumed⟩

theorem visits_of_resume (fuel : Nat) (world : World) {outcome : Outcome} {calls : List Call}
    {after : Machine}
    (resumed : (machine.resume wiring.recorded.ports fuel).run (world, []) =
      (some (after, outcome), left, calls)) :
    wiring.Visits machine ⟨outcome, calls, after⟩ after :=
  ⟨rfl, world, left, resumes_of_resume fuel resumed⟩

end Resume

end Wiring

/-- The phase in which a machine stands after an outcome. -/
inductive Outcome.Stands : Outcome → Phase → Prop
  | aboutToInput (instruction : Instruction) : Stands (.ok .aboutToInput) (.reading instruction)
  | afterInput : Stands (.ok .afterInput) .running
  | aboutToOutput (word : Word) : Stands (.ok .aboutToOutput) (.writing word)
  | afterOutput : Stands (.ok .afterOutput) .running
  | halted : Stands (.ok .halted) .halted
  | faulted (fault : Fault) : Stands (.error fault) (.faulted fault)

section Stands

variable {World : Type} {wiring : Wiring World} {machine : Machine} {world left : World}
  {stop : Stop} {outcome : Outcome} {phase : Phase}

theorem Outcome.Leaves.stands (leaves : outcome.Leaves phase) : outcome.Stands phase := by
  cases leaves with
  | aboutToInput instruction => exact .aboutToInput instruction
  | aboutToOutput word => exact .aboutToOutput word
  | halted => exact .halted
  | faulted => exact .faulted _

theorem Wiring.Continues.stands (continues : wiring.Continues machine world stop left) :
    stop.outcome.Stands stop.after.phase := by
  cases continues with
  | advanced phase advanced => exact (Machine.advance_leaves advanced).stands
  | unfed phase missing received | fed phase connected received =>
      rcases Machine.receive_cases received with ⟨_, _, _, _, rfl, rfl⟩ | ⟨fault, rfl, rfl⟩
      · exact .afterInput
      · exact .faulted fault
  | dropped | wrote => exact .afterOutput
  | halted phase =>
      rw [phase]
      exact .halted
  | faulted phase =>
      rw [phase]
      exact .faulted _

theorem Outcome.Stands.isAwaitingInput_iff (stands : outcome.Stands machine.phase) :
    machine.isAwaitingInput = true ↔ outcome = .ok .aboutToInput := by
  rw [Machine.isAwaitingInput]
  generalize machine.phase = phase at stands
  cases stands <;> simp

theorem Outcome.Stands.isHalted_iff (stands : outcome.Stands machine.phase) :
    machine.isHalted = true ↔ outcome = .ok .halted := by
  rw [Machine.isHalted]
  generalize machine.phase = phase at stands
  cases stands <;> simp

end Stands

end Intcode
