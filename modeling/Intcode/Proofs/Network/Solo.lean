import Intcode.Proofs.Machine.Outcomes
import Intcode.Proofs.Network.Ledger
import Intcode.Proofs.Session.Reach

namespace Intcode

namespace Machine

/-- What a machine that is supplied with a row of inputs comes to by itself, and its ledger. -/
inductive Solo (inputs : List Word) (origin : Machine) : Machine → Ledger → Prop
  | start : Solo inputs origin origin {}
  | move {before after : Machine} {ledger : Ledger} {transfer : Transfer}
      (solo : Solo inputs origin before ledger)
      (moves : before.Moves (inputs.drop ledger.taken.length).head? after transfer) :
      Solo inputs origin after (transfer.record (inputs.drop ledger.taken.length).head? ledger)

variable {machine after origin : Machine} {inputs left pipe : List Word} {ledger : Ledger}
  {transfer : Transfer}

/-- More input behind what is left makes no difference to what a machine does next. -/
theorem Moves.of_prefix (moves : machine.Moves left.head? after transfer) (fed : left <+: pipe) :
    machine.Moves pipe.head? after transfer ∧
      transfer.record pipe.head? ledger = transfer.record left.head? ledger := by
  cases moves with
  | run phase advanced => exact ⟨.run phase advanced, rfl⟩
  | take phase oldest received =>
      obtain ⟨rest, rfl⟩ := List.head?_eq_some_iff.mp oldest
      obtain ⟨more, rfl⟩ := fed
      exact ⟨.take phase rfl received, rfl⟩
  | give phase => exact ⟨.give phase, rfl⟩

theorem Solo.taken_append_drop (solo : Solo inputs origin machine ledger) :
    ledger.taken ++ inputs.drop ledger.taken.length = inputs := by
  induction solo with
  | start => rfl
  | @move _ _ ledger _ _ moves ih =>
      cases moves with
      | run => exact ih
      | @take _ word _ _ phase oldest =>
          obtain ⟨rest, left⟩ := List.head?_eq_some_iff.mp oldest
          have shorter : inputs.drop (ledger.taken.length + 1) = rest := by
            rw [← List.tail_drop, left, List.tail_cons]
          simp only [Transfer.record, oldest, Option.toList_some, List.length_append,
            List.length_singleton, shorter, List.append_assoc, List.singleton_append]
          rw [← left]
          exact ih
      | give => exact ih

end Machine

namespace Endpoints

/-- The endpoints of a machine that runs by itself, once this has gone through its ports. -/
def afterLedger (inputs : List Word) (ledger : Ledger) : Endpoints :=
  { feed := .source (.queue (inputs.drop ledger.taken.length)), sink := some id,
    outbox := ledger.written.toArray }

variable {inputs : List Word} {ledger : Ledger} {word : Word}

theorem read_afterLedger :
    (afterLedger inputs ledger).read =
      (.ofValue? (inputs.drop ledger.taken.length).head?,
        afterLedger inputs (Transfer.take.record (inputs.drop ledger.taken.length).head? ledger)) := by
  rw [read_source rfl]
  cases left : inputs.drop ledger.taken.length with
  | nil => simp [afterLedger, Transfer.record, Source.next, left]
  | cons word rest =>
      have shorter : inputs.drop (ledger.taken.length + 1) = rest := by
        rw [← List.tail_drop, left, List.tail_cons]
      simp [afterLedger, Transfer.record, Source.next, left, shorter]

theorem write_afterLedger :
    (afterLedger inputs ledger).write word = afterLedger inputs (ledger.handOut word) := by
  rw [write_collected rfl]
  simp [afterLedger, Ledger.handOut]

end Endpoints

namespace Session

/-- The answer of a machine that runs to its end, and its endpoints then. -/
def runsTo (report : Event → Id Unit) (fuel : Nat) (session : Session) :
    Option (Except Fault Memory) × Endpoints :=
  Id.run ((session.machine.run Endpoints.ports
    (fun event => (liftM (report event) : StateT Endpoints Id Unit)) fuel).run session.ends)

/-- How a run goes on after a resume with this outcome. -/
def runsOn (report : Event → Id Unit) (fuel : Nat) (session : Session) :
    Outcome → Option (Except Fault Memory) × Endpoints
  | .ok .halted => (some (.ok session.machine.memory), session.ends)
  | .ok _ => runsTo report fuel session
  | .error fault => (some (.error fault), session.ends)

variable {report : Event → Id Unit} {fuel : Nat} {session next : Session} {outcome : Outcome}

theorem runsTo_none (stopped : session.resume fuel = none) :
    (runsTo report (fuel + 1) session).1 = none := by
  cases resumed : (session.machine.resume (m := StateT Endpoints Id) Endpoints.ports fuel).run
      session.ends with
  | mk answer ends =>
      simp only [resume, resumed, Option.map_eq_none_iff] at stopped
      subst stopped
      simp only [runsTo, Machine.run, StateT.run_bind, resumed]
      rfl

theorem runsTo_some (resumed : session.resume fuel = some (next, outcome)) :
    runsTo report (fuel + 1) session = runsOn report fuel next outcome := by
  cases answered : (session.machine.resume (m := StateT Endpoints Id) Endpoints.ports fuel).run
      session.ends with
  | mk answer ends =>
      simp only [resume, answered, Option.map_eq_some_iff] at resumed
      obtain ⟨⟨machine, outcome'⟩, rfl, same⟩ := resumed
      cases same
      simp only [runsTo, Machine.run, StateT.run_bind, answered]
      cases outcome' with
      | error fault => rfl
      | ok reason => cases reason <;> rfl

variable {inputs : List Word} {origin machine : Machine} {ledger : Ledger} {reason : Suspension}

theorem solo_of_resume (solo : Machine.Solo inputs origin machine ledger)
    (resumed : resume { machine, ends := .afterLedger inputs ledger } fuel =
      some (next, .ok reason)) :
    ∃ after entered, next = { machine := after, ends := .afterLedger inputs entered } ∧
      Machine.Solo inputs origin after entered ∧ (reason = .halted → after.isHalted = true) := by
  cases phase : machine.phase with
  | running =>
      rw [resume_running phase, Option.map_eq_some_iff] at resumed
      obtain ⟨⟨after, outcome⟩, advanced, same⟩ := resumed
      cases same
      refine ⟨after, ledger, rfl, solo.move (.run phase advanced), ?_⟩
      rintro rfl
      simp only [Machine.isHalted, (Machine.advance_leaves advanced).phase_of_halted]
  | reading instruction =>
      cases received : machine.receive instruction
          (.ofValue? (inputs.drop ledger.taken.length).head?) with
      | mk after outcome =>
          rw [resume_reading phase Endpoints.read_afterLedger received] at resumed
          cases resumed
          cases oldest : (inputs.drop ledger.taken.length).head? with
          | none =>
              rw [oldest] at received
              cases received
          | some word =>
              rw [oldest] at received
              have moved := solo.move (.take phase oldest received)
              rw [oldest] at moved
              refine ⟨after, _, rfl, moved, ?_⟩
              intro halted
              rw [(Machine.receive_value_ok received).2] at halted
              cases halted
  | writing word =>
      rw [resume_writing phase] at resumed
      cases resumed
      refine ⟨_, ledger.handOut word, ?_, solo.move (.give phase), ?_⟩
      · rw [Endpoints.write_afterLedger]
      · intro halted
        cases halted
  | halted =>
      rw [resume_halted phase] at resumed
      cases resumed
      exact ⟨machine, ledger, rfl, solo, fun _ => by simp only [Machine.isHalted, phase]⟩
  | faulted fault =>
      rw [resume_faulted phase] at resumed
      cases resumed

/-- A machine that runs to its halt by itself leaves its endpoints as its ledger says. -/
theorem solo_of_runsTo {memory : Memory} {ends : Endpoints}
    (solo : Machine.Solo inputs origin machine ledger)
    (answered : runsTo report fuel { machine, ends := .afterLedger inputs ledger } =
      (some (.ok memory), ends)) :
    ∃ final entered, Machine.Solo inputs origin final entered ∧ final.isHalted = true ∧
      ends = .afterLedger inputs entered := by
  induction fuel generalizing machine ledger with
  | zero => cases congrArg Prod.fst answered
  | succ fuel ih =>
      cases resumed : resume { machine, ends := .afterLedger inputs ledger } fuel with
      | none =>
          have stopped : (runsTo report (fuel + 1) _).1 = none := runsTo_none resumed
          rw [answered] at stopped
          cases stopped
      | some answer =>
          obtain ⟨next, outcome⟩ := answer
          rw [runsTo_some resumed] at answered
          cases outcome with
          | error fault => cases congrArg Prod.fst answered
          | ok reason =>
              obtain ⟨after, entered, rfl, soloNext, halts⟩ := solo_of_resume solo resumed
              cases reason with
              | halted =>
                  cases answered
                  exact ⟨after, entered, soloNext, halts rfl, rfl⟩
              | aboutToInput | afterInput | aboutToOutput | afterOutput => exact ih soloNext answered

end Session

end Intcode
