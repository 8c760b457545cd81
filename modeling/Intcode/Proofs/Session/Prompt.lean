import Intcode.Proofs.Session.Wired

namespace Intcode

/-! # Words pushed when they are asked for

A session that reads from its inbox is given each word only when it is about to take it. It
goes the same way as the session that finds all the words in its inbox from the start: at
any moment it is that session, with the words it has not asked for held back.
-/

namespace Endpoints

variable {ends : Endpoints}

theorem read_inbox (feed : ends.feed = .inbox) :
    ends.read = (.ofValue? ends.inbox.head?, { ends with inbox := ends.inbox.tail }) := by
  rw [read, feed]

theorem write_with_inbox (inbox : List Word) (word : Word) :
    write { ends with inbox } word = { ends.write word with inbox } := by
  cases sink : ends.sink <;> simp only [write, sink]

theorem feed_write (word : Word) : (ends.write word).feed = ends.feed := by
  cases sink : ends.sink <;> simp only [write, sink]

theorem inbox_write (word : Word) : (ends.write word).inbox = ends.inbox := by
  cases sink : ends.sink <;> simp only [write, sink]

end Endpoints

namespace Session

/-- A session at the start of a program that reads from its inbox and collects its output. -/
def piped (program : Program) (inbox : List Word) : Session where
  machine := Machine.ofProgram program
  ends := { feed := .inbox, sink := some id, inbox }

/-- A resume, and if the machine is now about to take input the next word is pushed, if one is
left. -/
def Prompts (before : Session × List Word) (outcome : Outcome) (after : Session × List Word) :
    Prop :=
  ∃ next, before.1.Resumes outcome next ∧
    after = if outcome = .ok .aboutToInput then (next.push (before.2.take 1), before.2.drop 1)
      else (next, before.2)

def withInbox (session : Session) (inbox : List Word) : Session :=
  { session with ends.inbox := inbox }

/-- The session with nothing in its inbox but a word that is asked for, and the words held back. -/
def heldBack (session : Session) : Session × List Word :=
  if session.machine.isAwaitingInput then
    (session.withInbox (session.ends.inbox.take 1), session.ends.inbox.drop 1)
  else (session.withInbox [], session.ends.inbox)

variable {session before after : Session} {outcome : Outcome} {outcomes : List Outcome}
  {program : Program} {values : List Word}

theorem Resumes.stands (resumed : session.Resumes outcome after) :
    outcome.Stands after.machine.phase := by
  obtain ⟨calls, resumed⟩ := resumes_iff_wiring.mp resumed
  exact resumed.continues.stands

theorem heldBack_reading {instruction : Instruction}
    (phase : session.machine.phase = .reading instruction) :
    session.heldBack =
      (session.withInbox (session.ends.inbox.take 1), session.ends.inbox.drop 1) := by
  simp only [heldBack, Machine.isAwaitingInput, phase, if_true]

theorem heldBack_busy (busy : ∀ instruction, session.machine.phase ≠ .reading instruction) :
    session.heldBack = (session.withInbox [], session.ends.inbox) := by
  rw [heldBack, if_neg]
  cases phase : session.machine.phase with
  | reading instruction => exact absurd phase (busy instruction)
  | running | writing | halted | faulted => simp [Machine.isAwaitingInput, phase]

theorem machine_heldBack (session : Session) : session.heldBack.1.machine = session.machine := by
  unfold heldBack
  split <;> rfl

theorem outbox_heldBack (session : Session) :
    session.heldBack.1.ends.outbox = session.ends.outbox := by
  unfold heldBack
  split <;> rfl

/-- With the other words held back the machine finds the word it asks for, and needs no more. -/
theorem resume_heldBack (feed : session.ends.feed = .inbox) (fuel : Nat) :
    session.heldBack.1.resume fuel =
      (session.resume fuel).map fun (after, outcome) => (after.withInbox [], outcome) := by
  cases phase : session.machine.phase with
  | running =>
      rw [heldBack_busy (by simp [phase]), resume_running (by exact phase),
        resume_running phase, Option.map_map]
      rfl
  | reading instruction =>
      have offered : (session.withInbox (session.ends.inbox.take 1)).ends.read =
          (.ofValue? session.ends.inbox.head?, { session.ends with inbox := [] }) := by
        rw [Endpoints.read_inbox (by exact feed)]
        cases inbox : session.ends.inbox <;> simp [withInbox]
      cases received : session.machine.receive instruction (.ofValue? session.ends.inbox.head?)
      rw [heldBack_reading phase, resume_reading phase (Endpoints.read_inbox feed) received,
        resume_reading (by exact phase) offered received]
      rfl
  | writing word =>
      rw [heldBack_busy (by simp [phase]), resume_writing (by exact phase),
        resume_writing phase]
      simp only [withInbox, Endpoints.write_with_inbox]
      rfl
  | halted =>
      rw [heldBack_busy (by simp [phase]), resume_halted (by exact phase),
        resume_halted phase]
      rfl
  | faulted fault =>
      rw [heldBack_busy (by simp [phase]), resume_faulted (by exact phase),
        resume_faulted phase]
      rfl

theorem resumes_heldBack_iff {next : Session} (feed : session.ends.feed = .inbox) :
    session.heldBack.1.Resumes outcome next ↔
      ∃ after, session.Resumes outcome after ∧ next = after.withInbox [] := by
  simp only [Resumes, resume_heldBack feed, Option.map_eq_some_iff]
  constructor
  · rintro ⟨fuel, ⟨after, outcome⟩, resumed, same⟩
    cases same
    exact ⟨after, ⟨fuel, resumed⟩, rfl⟩
  · rintro ⟨after, ⟨fuel, resumed⟩, rfl⟩
    exact ⟨fuel, (after, outcome), resumed, rfl⟩

/-- A session takes words from its inbox one by one, and only when it has asked for them. -/
theorem Resumes.inbox (feed : session.ends.feed = .inbox)
    (resumed : session.Resumes outcome after) :
    after.ends.feed = .inbox ∧ after.ends.inbox = session.heldBack.2 := by
  obtain ⟨fuel, resumed⟩ := resumed
  cases phase : session.machine.phase with
  | running =>
      rw [resume_running phase] at resumed
      obtain ⟨answer, _, same⟩ := Option.map_eq_some_iff.mp resumed
      cases same
      rw [heldBack_busy (by simp [phase])]
      exact ⟨feed, rfl⟩
  | reading instruction =>
      rw [resume_reading phase (Endpoints.read_inbox feed) rfl] at resumed
      cases resumed
      rw [heldBack_reading phase, List.drop_one]
      exact ⟨feed, rfl⟩
  | writing word =>
      rw [resume_writing phase] at resumed
      cases resumed
      rw [heldBack_busy (by simp [phase])]
      exact ⟨(Endpoints.feed_write word).trans feed, Endpoints.inbox_write word⟩
  | halted =>
      rw [resume_halted phase] at resumed
      cases resumed
      rw [heldBack_busy (by simp [phase])]
      exact ⟨feed, rfl⟩
  | faulted fault =>
      rw [resume_faulted phase] at resumed
      cases resumed
      rw [heldBack_busy (by simp [phase])]
      exact ⟨feed, rfl⟩

theorem Resumes.heldBack_eq (feed : session.ends.feed = .inbox)
    (resumed : session.Resumes outcome after) :
    after.heldBack =
      if outcome = .ok .aboutToInput then
        ((after.withInbox []).push (session.heldBack.2.take 1), session.heldBack.2.drop 1)
      else (after.withInbox [], session.heldBack.2) := by
  simp only [heldBack, resumed.stands.isAwaitingInput_iff, (resumed.inbox feed).2]
  rfl

/-- Whatever the session does, it does with the words held back. -/
theorem prompts_heldBack_iff {prompted : Session × List Word} (feed : session.ends.feed = .inbox) :
    Prompts session.heldBack outcome prompted ↔
      ∃ after, session.Resumes outcome after ∧ prompted = after.heldBack := by
  constructor
  · rintro ⟨next, resumes, rfl⟩
    obtain ⟨after, resumed, rfl⟩ := (resumes_heldBack_iff feed).mp resumes
    exact ⟨after, resumed, (resumed.heldBack_eq feed).symm⟩
  · rintro ⟨after, resumed, rfl⟩
    exact ⟨_, (resumes_heldBack_iff feed).mpr ⟨after, resumed, rfl⟩, resumed.heldBack_eq feed⟩

theorem heldBack_piped : (piped program values).heldBack = (piped program [], values) := rfl

theorem feed_of_reaches (reached : Reaches Resumes (piped program values) outcomes session) :
    session.ends.feed = .inbox := by
  induction reached with
  | start => rfl
  | move _ resumed ih => exact (resumed.inbox ih).1

/-- Row for row, pushing each word when it is asked for comes to the session that had all words
from the start, with the words it has not asked for held back. -/
theorem reaches_prompts_iff {prompted : Session × List Word} :
    Reaches Prompts (piped program [], values) outcomes prompted ↔
      ∃ session, Reaches Resumes (piped program values) outcomes session ∧
        prompted = session.heldBack := by
  rw [← heldBack_piped]
  constructor
  · intro reached
    induction reached with
    | start => exact ⟨_, .start, rfl⟩
    | move _ moved ih =>
        obtain ⟨session, reached, rfl⟩ := ih
        obtain ⟨after, resumed, rfl⟩ := (prompts_heldBack_iff (feed_of_reaches reached)).mp moved
        exact ⟨after, reached.move resumed, rfl⟩
  · rintro ⟨session, reached, rfl⟩
    induction reached with
    | start => exact .start
    | move reached resumed ih =>
        exact ih.move ((prompts_heldBack_iff (feed_of_reaches reached)).mpr ⟨_, resumed, rfl⟩)

end Session

end Intcode
