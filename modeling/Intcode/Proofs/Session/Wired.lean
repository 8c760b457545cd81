import Intcode.Proofs.Session.Reach
import Intcode.Proofs.Wiring

namespace Intcode

namespace Endpoints

/-- The next value of the input that is connected, if it has one. -/
def take (ends : Endpoints) : Option Word × Endpoints :=
  match ends.feed with
  | .disconnected => (none, ends)
  | .source source => (source.next.1, { ends with feed := .source source.next.2 })
  | .inbox => (ends.inbox.head?, { ends with inbox := ends.inbox.tail })

def wiring (ends : Endpoints) : Wiring Endpoints where
  source :=
    match ends.feed with
    | .disconnected => none
    | .source _ | .inbox => some take
  sink := ends.sink.map fun _ word ends => ends.write word

variable {ends : Endpoints}

theorem read_missing (missing : ends.wiring.source = none) : ends.read = (.disconnected, ends) := by
  cases feed : ends.feed <;> simp only [wiring, feed, reduceCtorEq] at missing
  exact read_disconnected feed

theorem read_connected {take : Endpoints → Option Word × Endpoints}
    (connected : ends.wiring.source = some take) :
    ends.read = (.ofValue? (take ends).1, (take ends).2) := by
  cases feed : ends.feed <;> simp only [wiring, feed, Option.some.injEq, reduceCtorEq] at connected
  all_goals
    subst connected
    simp only [read, Endpoints.take, feed]

theorem write_missing {word : Word} (missing : ends.wiring.sink = none) : ends.write word = ends := by
  rw [write, Option.map_eq_none_iff.mp missing]

theorem write_connected {word : Word} {give : Word → Endpoints → Endpoints}
    (connected : ends.wiring.sink = some give) : ends.write word = give word ends := by
  obtain ⟨transform, _, rfl⟩ := Option.map_eq_some_iff.mp connected
  rfl

end Endpoints

namespace Session

variable {session after : Session} {outcome : Outcome}

theorem resume_eq_wiring {fuel : Nat} {answer : Option (Machine × Outcome)} {ends : Endpoints}
    {calls : List Call}
    (resumed : (session.machine.resume session.ends.wiring.recorded.ports fuel).run
      (session.ends, []) = (answer, ends, calls)) :
    session.resume fuel = answer.map fun (machine, outcome) => ({ machine, ends }, outcome) := by
  cases phase : session.machine.phase with
  | running =>
      rw [Wiring.resume_running phase] at resumed
      cases resumed
      exact resume_running phase
  | reading instruction =>
      cases connected : session.ends.wiring.source with
      | none =>
          rw [Wiring.resume_unfed phase connected] at resumed
          cases resumed
          exact resume_reading phase (Endpoints.read_missing connected) rfl
      | some take =>
          rw [Wiring.resume_fed phase connected] at resumed
          cases resumed
          exact resume_reading phase (Endpoints.read_connected connected) rfl
  | writing word =>
      cases connected : session.ends.wiring.sink with
      | none =>
          rw [Wiring.resume_dropped phase connected] at resumed
          cases resumed
          rw [resume_writing phase, Endpoints.write_missing connected]
          rfl
      | some give =>
          rw [Wiring.resume_wrote phase connected] at resumed
          cases resumed
          rw [resume_writing phase, Endpoints.write_connected connected]
          rfl
  | halted =>
      rw [Wiring.resume_halted phase] at resumed
      cases resumed
      exact resume_halted phase
  | faulted fault =>
      rw [Wiring.resume_faulted phase] at resumed
      cases resumed
      exact resume_faulted phase

/-- The moves of a session are the resumes of its machine at its wiring. -/
theorem resumes_iff_wiring :
    session.Resumes outcome after ↔
      ∃ calls, session.ends.wiring.Resumes session.machine session.ends
        ⟨outcome, calls, after.machine⟩ after.ends := by
  constructor
  · rintro ⟨fuel, resumed⟩
    cases wired : (session.machine.resume session.ends.wiring.recorded.ports fuel).run
      (session.ends, []) with
    | mk answer left =>
        obtain ⟨ends, calls⟩ := left
        rw [resume_eq_wiring wired] at resumed
        obtain ⟨⟨machine, outcome⟩, rfl, same⟩ := Option.map_eq_some_iff.mp resumed
        cases same
        exact ⟨calls, fuel, wired⟩
  · rintro ⟨calls, fuel, wired⟩
    exact ⟨fuel, resume_eq_wiring wired⟩

end Session

end Intcode
