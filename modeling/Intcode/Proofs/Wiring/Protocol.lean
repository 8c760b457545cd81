import Intcode.Proofs.Wiring

namespace Intcode

/-- An instruction that meets the outside world, from its announcement to its completion. -/
inductive Exchange where
  | input
  | output

def Exchange.outcomes : Exchange → List Outcome
  | input => [.ok .aboutToInput, .ok .afterInput]
  | output => [.ok .aboutToOutput, .ok .afterOutput]

/-- What comes after the last exchange, as far as it is seen. -/
inductive Ending : List Outcome → Prop
  | halted (count : Nat) : Ending (List.replicate count (.ok .halted))
  | faulted (fault : Fault) (count : Nat) : Ending (List.replicate count (.error fault))
  /-- The input that was announced fails. -/
  | refused (fault : Fault) (count : Nat) :
      Ending (.ok .aboutToInput :: List.replicate count (.error fault))

/-- The shape of a row of outcomes: the beginning of some exchanges and an ending. -/
def Protocol (outcomes : List Outcome) : Prop :=
  ∃ (exchanges : List Exchange) (ending : List Outcome),
    Ending ending ∧ outcomes <+: exchanges.flatMap Exchange.outcomes ++ ending

/-- What the phase of a machine tells of the outcomes so far. -/
inductive Phase.Follows : Phase → List Outcome → Prop
  | running (exchanges : List Exchange) : Follows .running (exchanges.flatMap Exchange.outcomes)
  | reading (exchanges : List Exchange) (instruction : Instruction) :
      Follows (.reading instruction)
        (exchanges.flatMap Exchange.outcomes ++ [.ok .aboutToInput])
  | writing (exchanges : List Exchange) (word : Word) :
      Follows (.writing word) (exchanges.flatMap Exchange.outcomes ++ [.ok .aboutToOutput])
  | halted (exchanges : List Exchange) (count : Nat) :
      Follows .halted
        (exchanges.flatMap Exchange.outcomes ++ List.replicate (count + 1) (.ok .halted))
  | faulted (exchanges : List Exchange) (fault : Fault) (count : Nat) :
      Follows (.faulted fault)
        (exchanges.flatMap Exchange.outcomes ++ List.replicate (count + 1) (.error fault))
  | refused (exchanges : List Exchange) (fault : Fault) (count : Nat) :
      Follows (.faulted fault)
        (exchanges.flatMap Exchange.outcomes ++
          .ok .aboutToInput :: List.replicate (count + 1) (.error fault))

variable {World : Type} {wiring : Wiring World} {machine : Machine} {world left : World}
  {stop : Stop} {stops : List Stop} {outcomes : List Outcome} {phase : Phase}

theorem Phase.Follows.protocol (follows : phase.Follows outcomes) : Protocol outcomes := by
  cases follows with
  | running exchanges => exact ⟨exchanges, [], .halted 0, by simp⟩
  | reading exchanges =>
      exact ⟨exchanges ++ [.input], [], .halted 0, [.ok .afterInput], by simp [Exchange.outcomes]⟩
  | writing exchanges =>
      exact ⟨exchanges ++ [.output], [], .halted 0, [.ok .afterOutput], by simp [Exchange.outcomes]⟩
  | halted exchanges count => exact ⟨exchanges, _, .halted (count + 1), List.prefix_rfl⟩
  | faulted exchanges fault count =>
      exact ⟨exchanges, _, .faulted fault (count + 1), List.prefix_rfl⟩
  | refused exchanges fault count =>
      exact ⟨exchanges, _, .refused fault (count + 1), List.prefix_rfl⟩

/-- An exchange is complete with the outcome that was announced. -/
theorem Phase.Follows.completed {exchanges : List Exchange} (exchange : Exchange)
    {announced completed : Outcome} (outcomes : exchange.outcomes = [announced, completed]) :
    Phase.Follows .running
      (exchanges.flatMap Exchange.outcomes ++ [announced] ++ [completed]) := by
  have longer := Phase.Follows.running (exchanges ++ [exchange])
  simpa [outcomes] using longer

theorem Phase.Follows.advanced {outcome : Outcome} (follows : Phase.Follows .running outcomes)
    (leaves : outcome.Leaves phase) : phase.Follows (outcomes ++ [outcome]) := by
  cases follows with
  | running exchanges =>
      cases leaves with
      | aboutToInput instruction => exact .reading exchanges instruction
      | aboutToOutput word => exact .writing exchanges word
      | halted => exact .halted exchanges 0
      | @faulted fault => exact .faulted exchanges fault 0

theorem Phase.Follows.received {instruction : Instruction} {offer : Offer} {after : Machine}
    {outcome : Outcome} (follows : Phase.Follows (.reading instruction) outcomes)
    (received : machine.receive instruction offer = (after, outcome)) :
    after.phase.Follows (outcomes ++ [outcome]) := by
  cases follows with
  | reading exchanges =>
      rcases Machine.receive_cases received with ⟨word, address, _, _, rfl, rfl⟩ | ⟨fault, rfl, rfl⟩
      · exact .completed .input rfl
      · have refused := Phase.Follows.refused exchanges fault 0
        simpa using refused

theorem Phase.Follows.stopped (follows : machine.phase.Follows outcomes)
    (continues : wiring.Continues machine world stop left) :
    stop.after.phase.Follows (outcomes ++ [stop.outcome]) := by
  cases continues with
  | advanced phase advanced =>
      rw [phase] at follows
      exact follows.advanced (Machine.advance_leaves advanced)
  | unfed phase _ received | fed phase _ received =>
      rw [phase] at follows
      exact follows.received received
  | dropped phase | wrote phase =>
      rw [phase] at follows
      cases follows with
      | writing exchanges => exact .completed .output rfl
  | halted phase =>
      rw [phase] at follows ⊢
      cases follows with
      | halted exchanges count =>
          rw [List.append_assoc, ← List.replicate_succ']
          exact .halted exchanges (count + 1)
  | faulted phase =>
      rw [phase] at follows ⊢
      cases follows with
      | faulted exchanges _ count =>
          rw [List.append_assoc, ← List.replicate_succ']
          exact .faulted exchanges _ (count + 1)
      | refused exchanges _ count =>
          rw [List.append_assoc, List.cons_append, ← List.replicate_succ']
          exact .refused exchanges _ (count + 1)

/-- The outcome of the last of these stops. -/
def Stop.last? (stops : List Stop) : Option Outcome :=
  stops.getLast?.map outcome

namespace Wiring

theorem Continues.length_reads (continues : wiring.Continues machine world stop left) :
    stop.reads.length =
      if wiring.source.isSome ∧ machine.isAwaitingInput = true then 1 else 0 := by
  cases continues with
  | advanced phase | dropped phase | wrote phase | halted phase | faulted phase =>
      simp [Stop.reads, Machine.isAwaitingInput, phase]
  | unfed phase missing => simp [Stop.reads, missing]
  | fed phase connected => simp [Stop.reads, Machine.isAwaitingInput, phase, connected]

theorem Continues.length_writes (continues : wiring.Continues machine world stop left) :
    stop.writes.length =
      if wiring.sink.isSome ∧ stop.outcome = .ok .afterOutput then 1 else 0 := by
  cases continues with
  | @advanced _ after _ phase advanced =>
      have leaves := Machine.advance_leaves advanced
      generalize after.phase = phaseAfter at leaves
      cases leaves <;> simp [Stop.writes]
  | unfed phase missing received | fed phase connected received =>
      rcases Machine.receive_cases received with ⟨_, _, _, _, _, rfl⟩ | ⟨_, _, rfl⟩ <;>
        simp [Stop.writes]
  | dropped phase missing => simp [Stop.writes, missing]
  | wrote phase connected => simp [Stop.writes, connected]
  | halted phase | faulted phase => simp [Stop.writes]

variable {program : Program}

theorem follows_of_reaches (reached : Reaches wiring.Visits (.ofProgram program) stops machine) :
    machine.phase.Follows (stops.map Stop.outcome) := by
  induction reached with
  | start => exact .running []
  | move _ visited ih =>
      obtain ⟨rfl, world, left, resumed⟩ := visited
      rw [List.map_append]
      exact ih.stopped resumed.continues

theorem isAwaitingInput_of_reaches
    (reached : Reaches wiring.Visits (.ofProgram program) stops machine) :
    machine.isAwaitingInput = true ↔ Stop.last? stops = some (.ok .aboutToInput) := by
  cases reached with
  | start => simp [Stop.last?, Machine.ofProgram, Machine.isAwaitingInput]
  | move _ visited =>
      obtain ⟨rfl, world, left, resumed⟩ := visited
      simp [Stop.last?, resumed.continues.stands.isAwaitingInput_iff]

/-- The outcomes come in one shape; the source is read just once in a resume after an announced
input, and the sink is written just once in a resume that answers after an output; and a stop
shows whether the machine has halted or waits for input. -/
theorem outcomes_follow_protocol (wiring : Wiring World) (program : Program)
    (reached : Reaches wiring.Visits (.ofProgram program) stops machine) :
    Protocol (stops.map Stop.outcome) ∧
    (∀ before stop rest, stops = before ++ stop :: rest →
      stop.reads.length =
        (if wiring.source.isSome ∧ Stop.last? before = some (.ok .aboutToInput) then 1 else 0) ∧
      stop.writes.length =
        (if wiring.sink.isSome ∧ stop.outcome = .ok .afterOutput then 1 else 0) ∧
      (stop.after.isAwaitingInput = true ↔ stop.outcome = .ok .aboutToInput) ∧
      (stop.after.isHalted = true ↔ stop.outcome = .ok .halted)) := by
  refine ⟨(follows_of_reaches reached).protocol, ?_⟩
  rintro before stop rest rfl
  obtain ⟨middle, next, reached, rfl, world, left, resumed⟩ := reached.split
  have continues := resumed.continues
  have awaiting := isAwaitingInput_of_reaches reached
  refine ⟨?_, continues.length_writes, continues.stands.isAwaitingInput_iff,
    continues.stands.isHalted_iff⟩
  rw [continues.length_reads]
  simp only [awaiting]

/-- A program writes the word it has read, and then fails with the next one. -/
theorem failing_echo_follows_protocol :
    ∃ before stop machine,
      Reaches collecting.Visits (.ofProgram ⟨[3, 0, 4, 0, 3, -1]⟩) (before ++ [stop]) machine ∧
      before.map Stop.outcome =
        [.ok .aboutToInput, .ok .afterInput, .ok .aboutToOutput, .ok .afterOutput,
          .ok .aboutToInput] ∧
      stop.outcome = .error { kind := .negativeAddress (-1), address := 4 } ∧
      Protocol ((before ++ [stop]).map Stop.outcome) ∧ stop.reads.length = 1 := by
  have started : Reaches collecting.Visits (.ofProgram ⟨[3, 0, 4, 0, 3, -1]⟩) [] _ := .start
  have reached := (((((started.move (visits_of_resume 1 ([7, 8], []) rfl)).move
    (visits_of_resume 0 ([7, 8], []) rfl)).move (visits_of_resume 1 ([8], []) rfl)).move
    (visits_of_resume 0 ([8], []) rfl)).move (visits_of_resume 1 ([8], [7]) rfl)).move
    (visits_of_resume 0 ([8], [7]) rfl)
  obtain ⟨shape, calls⟩ := outcomes_follow_protocol _ _ reached
  exact ⟨_, _, _, reached, rfl, rfl, shape, (calls _ _ [] rfl).1⟩

end Wiring

end Intcode
