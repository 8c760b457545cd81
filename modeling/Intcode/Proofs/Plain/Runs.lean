import Intcode.Proofs.Plain.Refinement

namespace Intcode

namespace Session

/-- Nothing has been announced that is still to happen. -/
def AtBoundary (outcomes : List Outcome) : Prop :=
  ∀ outcome, outcomes.getLast? = some outcome → outcome.announces = false

theorem atBoundary_snoc {outcomes : List Outcome} {outcome : Outcome} :
    AtBoundary (outcomes ++ [outcome]) ↔ outcome.announces = false := by
  simp [AtBoundary]

theorem reports_of_announces {outcome : Outcome} (announced : outcome.announces = true)
    (outcomes : List Outcome) : reports (outcomes ++ [outcome]) = reports outcomes := by
  simp [reports, announced]

theorem reports_of_happened {outcome : Outcome} (happened : outcome.announces = false)
    (outcomes : List Outcome) : reports (outcomes ++ [outcome]) = reports outcomes ++ [outcome] := by
  simp [reports, happened]

end Session

namespace Plain

variable {session next : Session} {plain middle after final : Plain} {outcome other : Outcome}

/-- What the answer of a resume has to do with the next report of the plain machine. -/
inductive Answers (plain : Plain) (outcome : Outcome) (next : Session) : Prop
  | reported {after : Plain} (happened : outcome.announces = false)
      (settled : Settles step plain outcome after) (shows : Shows next after) :
      Answers plain outcome next
  | announced {after : Plain} {report : Outcome} {last : Session}
      (announced : outcome.announces = true) (settled : Settles step plain report after)
      (happened : report.announces = false)
      (resumed : ∀ fuel, next.resume fuel = some (last, report)) (shows : Shows last after) :
      Answers plain outcome next

theorem Shows.phase (shows : Shows session plain) (running : plain.status = .running) :
    session.machine.phase = .running := by
  have control := shows.control
  rw [running] at control
  exact control.1

theorem inStep (session : Session) :
    InStep Machine.step step fun machine plain =>
      Shows { session with machine } plain ∧ plain.status = .running := by
  rintro machine plain ⟨shows, running⟩
  cases step_agrees shows running with
  | silent stepped plainStepped running shows =>
      exact .inl ⟨_, _, stepped, plainStepped, shows, running⟩
  | ended stepped plainStepped | exchanged stepped _ plainStepped =>
      exact .inr ⟨by simp only [stepped, Option.isSome_some],
        by simp only [plainStepped, Option.isSome_some]⟩

/-- Over any number of instructions the machine ends up where the plain machine does. -/
theorem settles_answers {machine : Machine} (shows : Shows session plain)
    (running : plain.status = .running)
    (settled : Settles Machine.step session.machine outcome machine) :
    Answers plain outcome { session with machine } := by
  obtain ⟨last, plainLast, ⟨shows, running⟩, reported, onward⟩ :=
    (inStep session).last_step ⟨shows, running⟩ settled
  cases step_agrees shows running with
  | silent stepped =>
      rw [reported] at stepped
      cases stepped
  | ended stepped plainStepped happened shows =>
      rw [reported] at stepped
      cases stepped
      exact .reported happened (onward _ _ (.report plainStepped)) shows
  | exchanged stepped announced plainStepped happened resumed shows =>
      rw [reported] at stepped
      cases stepped
      exact .announced announced (onward _ _ (.report plainStepped)) happened resumed shows

theorem resume_answers (shows : Shows session plain) (resumed : session.Resumes outcome next) :
    Answers plain outcome next := by
  have control := shows.control
  cases status : plain.status with
  | running =>
      rw [Session.resumes_iff_settles (shows.phase status)] at resumed
      obtain ⟨machine, settled, rfl⟩ := resumed
      exact settles_answers shows status settled
  | halted =>
      rw [status] at control
      obtain ⟨fuel, resumed⟩ := resumed
      rw [Session.resume_halted control.1] at resumed
      cases resumed
      exact .reported rfl (.report (by rw [step, status])) shows
  | failed fault =>
      rw [status] at control
      obtain ⟨fuel, resumed⟩ := resumed
      rw [Session.resume_faulted control] at resumed
      cases resumed
      exact .reported rfl (.report (by rw [step, status])) shows

/-- Where the plain machine comes to a report the machine comes to an outcome. -/
theorem resumes_of_settles (shows : Shows session plain)
    (settled : Settles step plain outcome after) : ∃ answer next, session.Resumes answer next := by
  cases status : plain.status with
  | halted =>
      have control := shows.control
      rw [status] at control
      exact ⟨_, _, 0, Session.resume_halted control.1⟩
  | failed fault =>
      have control := shows.control
      rw [status] at control
      exact ⟨_, _, 0, Session.resume_faulted control⟩
  | running =>
      simp only [Session.resumes_iff_settles (shows.phase status)]
      obtain ⟨plainLast, last, ⟨shows, running⟩, reported, onward⟩ :=
        (inStep session).symm.last_step ⟨shows, status⟩ settled
      cases step_agrees shows running with
      | silent _ plainStepped =>
          rw [reported] at plainStepped
          cases plainStepped
      | ended stepped | exchanged stepped =>
          exact ⟨_, _, _, onward _ _ (.report stepped), rfl⟩

theorem shows_start (program : Program) (input : Option Source) :
    Shows (Session.wired program input) (start program input) where
  memory address := Memory.get_ofProgram program address
  size := Memory.size_ofProgram program
  base := rfl
  feed := rfl
  sink := rfl
  output := rfl
  control := ⟨rfl, rfl⟩

/-- After any row of resumes: the plain machine stands there too, or it is about to report what
was announced. -/
theorem plain_of_reaches {program : Program} {input : Option Source} {outcomes : List Outcome}
    (reached : Reaches Session.Resumes (Session.wired program input) outcomes session) :
    ∃ plain, Reaches (Settles step) (start program input) (Session.reports outcomes) plain ∧
      (Session.AtBoundary outcomes ∧ Shows session plain ∨
        ¬ Session.AtBoundary outcomes ∧
          ∃ report last after, Settles step plain report after ∧ report.announces = false ∧
            (∀ fuel, session.resume fuel = some (last, report)) ∧ Shows last after) := by
  induction reached with
  | start =>
      refine ⟨start program input, .start, .inl ⟨?_, shows_start program input⟩⟩
      intro outcome last
      cases last
  | @move outcomes before next outcome reached resumed ih =>
      obtain ⟨plain, plainReached, ⟨boundary, shows⟩ | ⟨within, report, last, after, settled,
        happened, resumes, shows⟩⟩ := ih
      · cases resume_answers shows resumed with
        | reported happened settled shows =>
            rw [Session.reports_of_happened happened]
            exact ⟨_, plainReached.move settled,
              .inl ⟨Session.atBoundary_snoc.mpr happened, shows⟩⟩
        | announced announced settled happened resumes shows =>
            rw [Session.reports_of_announces announced]
            refine ⟨plain, plainReached, .inr ⟨?_, _, _, _, settled, happened, resumes, shows⟩⟩
            simp [Session.atBoundary_snoc, announced]
      · obtain ⟨fuel, resumed⟩ := resumed
        rw [resumes fuel] at resumed
        cases resumed
        rw [Session.reports_of_happened happened]
        exact ⟨after, plainReached.move settled,
          .inl ⟨Session.atBoundary_snoc.mpr happened, shows⟩⟩

theorem session_of_reaches {program : Program} {input : Option Source} {reports : List Outcome}
    (reached : Reaches (Settles step) (start program input) reports plain) :
    ∃ outcomes session, Reaches Session.Resumes (Session.wired program input) outcomes session ∧
      Session.reports outcomes = reports ∧ Session.AtBoundary outcomes ∧ Shows session plain := by
  induction reached with
  | start =>
      refine ⟨[], _, .start, rfl, ?_, shows_start program input⟩
      intro outcome last
      cases last
  | move reached settled ih =>
      obtain ⟨outcomes, session, sessionReached, rfl, boundary, shows⟩ := ih
      obtain ⟨answer, next, resumed⟩ := resumes_of_settles shows settled
      have sessionReached := sessionReached.move resumed
      cases resume_answers shows resumed with
      | reported happened settledHere shows =>
          obtain ⟨rfl, rfl⟩ := settled.unique settledHere
          exact ⟨_, next, sessionReached, Session.reports_of_happened happened outcomes,
            Session.atBoundary_snoc.mpr happened, shows⟩
      | announced announced settledHere happened resumes shows =>
          obtain ⟨rfl, rfl⟩ := settled.unique settledHere
          refine ⟨_, _, sessionReached.move ⟨0, resumes 0⟩, ?_,
            Session.atBoundary_snoc.mpr happened, shows⟩
          rw [Session.reports_of_happened happened, Session.reports_of_announces announced]

/-- Whenever a session has carried out all it announced, the plain machine has come to the same
state by the same reports, and the session comes to every state the plain machine comes to. -/
theorem suspending_machine_refines_plain (program : Program) (input : Option Source) :
    (∀ outcomes session, Reaches Session.Resumes (Session.wired program input) outcomes session →
      Session.AtBoundary outcomes →
        ∃ plain, Reaches (Settles step) (start program input) (Session.reports outcomes) plain ∧
          Shows session plain) ∧
    (∀ reports plain, Reaches (Settles step) (start program input) reports plain →
      ∃ outcomes session, Reaches Session.Resumes (Session.wired program input) outcomes session ∧
        Session.reports outcomes = reports ∧ Session.AtBoundary outcomes ∧
          Shows session plain) := by
  constructor
  · intro outcomes session reached boundary
    obtain ⟨plain, plainReached, ⟨_, shows⟩ | ⟨within, _⟩⟩ := plain_of_reaches reached
    · exact ⟨plain, plainReached, shows⟩
    · exact absurd boundary within
  · intro reports plain reached
    exact session_of_reaches reached

theorem echo_shows_plain :
    ∃ plain, Reaches (Settles step) (start ⟨[3, 0, 4, 0, 99]⟩ (some (.queue [7])))
      [.ok .afterInput, .ok .afterOutput, .ok .halted] plain ∧ plain.output = [7] := by
  have started : Reaches Session.Resumes
      (Session.wired ⟨[3, 0, 4, 0, 99]⟩ (some (.queue [7]))) [] _ := .start
  have reached := ((((started.move ⟨1, rfl⟩).move ⟨1, rfl⟩).move ⟨1, rfl⟩).move
    ⟨1, rfl⟩).move ⟨1, rfl⟩
  obtain ⟨plain, plainReached, shows⟩ := (suspending_machine_refines_plain _ _).1 _ _ reached
    (Session.atBoundary_snoc.mpr rfl)
  exact ⟨plain, plainReached, shows.output.symm⟩

end Plain

end Intcode
