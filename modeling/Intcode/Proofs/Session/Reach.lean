import Intcode.Proofs.Machine.Advance
import Intcode.Session

namespace Intcode

namespace Endpoints

variable {ends : Endpoints} {source : Source} {word : Word}

theorem read_disconnected (feed : ends.feed = .disconnected) :
    ends.read = (.disconnected, ends) := by
  rw [read, feed]

theorem read_source (feed : ends.feed = .source source) :
    ends.read = (.ofValue? source.next.1, { ends with feed := .source source.next.2 }) := by
  rw [read, feed]

theorem write_collected (sink : ends.sink = some id) :
    ends.write word = { ends with outbox := ends.outbox.push word } := by
  rw [write, sink]
  rfl

end Endpoints

namespace Session

variable {session before after start middle final : Session} {outcome : Outcome}
  {outcomes : List Outcome} {fuel : Nat}

/-- A session at the start of a program that reads from a source, if one is connected, and
collects its output. -/
def wired (program : Program) (input : Option Source) : Session where
  machine := Machine.ofProgram program
  ends := { feed := input.elim .disconnected .source, sink := some id }

def Resumes (before : Session) (outcome : Outcome) (after : Session) : Prop :=
  ∃ fuel, before.resume fuel = some (after, outcome)

theorem resume_running (phase : session.machine.phase = .running) :
    session.resume fuel = (session.machine.advance fuel).map fun (machine, outcome) =>
      ({ session with machine }, outcome) := by
  simp only [resume, Machine.resume, phase]
  rfl

theorem resumes_iff_settles (phase : session.machine.phase = .running) :
    session.Resumes outcome after ↔
      ∃ machine, Settles Machine.step session.machine outcome machine ∧
        after = { session with machine } := by
  simp only [Resumes, resume_running phase, Machine.settles_iff_advance, Option.map_eq_some_iff]
  constructor
  · rintro ⟨fuel, ⟨machine, answer⟩, advanced, answered⟩
    cases answered
    exact ⟨machine, ⟨fuel, advanced⟩, rfl⟩
  · rintro ⟨machine, ⟨fuel, advanced⟩, rfl⟩
    exact ⟨fuel, _, advanced, rfl⟩

theorem resume_reading {instruction : Instruction} {offer : Offer} {ends : Endpoints}
    {machine : Machine} (phase : session.machine.phase = .reading instruction)
    (read : session.ends.read = (offer, ends))
    (received : session.machine.receive instruction offer = (machine, outcome)) :
    session.resume fuel = some ({ machine, ends }, outcome) := by
  have resumed : session.resume fuel =
      some ({ machine := (session.machine.receive instruction session.ends.read.1).1,
              ends := session.ends.read.2 },
        (session.machine.receive instruction session.ends.read.1).2) := by
    simp only [resume, Machine.resume, phase]
    rfl
  rw [resumed, read, received]

theorem resume_writing {word : Word} (phase : session.machine.phase = .writing word) :
    session.resume fuel =
      some ({ machine := { session.machine with phase := .running },
              ends := session.ends.write word }, .ok .afterOutput) := by
  simp only [resume, Machine.resume, phase]
  rfl

theorem resume_halted (phase : session.machine.phase = .halted) :
    session.resume fuel = some (session, .ok .halted) := by
  simp only [resume, Machine.resume, phase]
  rfl

theorem resume_faulted {fault : Fault} (phase : session.machine.phase = .faulted fault) :
    session.resume fuel = some (session, .error fault) := by
  simp only [resume, Machine.resume, phase]
  rfl

end Session

end Intcode
