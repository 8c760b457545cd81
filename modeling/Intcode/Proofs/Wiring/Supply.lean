import Intcode.Proofs.Session.Prompt
import Intcode.Proofs.Wiring.Protocol
import Mathlib.Data.List.Infix

namespace Intcode

namespace Stop

/-- What there is to see at a stop, the wiring apart. -/
def seen (stop : Stop) : Machine × Outcome :=
  (stop.after, stop.outcome)

/-- The first reads on the way through these stops were answered so, as far as they go. -/
def Supplied (answers : List (Option Word)) (stops : List Stop) : Prop :=
  (stops.flatMap reads).take answers.length <+: answers

variable {answers : List (Option Word)} {stops : List Stop} {stop : Stop}

theorem Supplied.init (supplied : Supplied answers (stops ++ [stop])) : Supplied answers stops := by
  have shorter : stops.flatMap reads <+: (stops ++ [stop]).flatMap reads := by
    rw [List.flatMap_append]
    exact List.prefix_append _ _
  exact (List.IsPrefix.take shorter answers.length).trans supplied

theorem Supplied.reads_prefix (supplied : Supplied answers stops)
    (few : (stops.flatMap reads).length ≤ answers.length) : stops.flatMap reads <+: answers := by
  rwa [Supplied, List.take_of_length_le few] at supplied

end Stop

namespace Machine

def outgoing (machine : Machine) : List Word :=
  match machine.phase with
  | .writing word => [word]
  | _ => []

theorem isSome_resume {World Other : Type} (ports : Ports (StateM World))
    (otherPorts : Ports (StateM Other)) (machine : Machine) (fuel : Nat) (world : World)
    (other : Other) :
    ((machine.resume ports fuel).run world).1.isSome =
      ((machine.resume otherPorts fuel).run other).1.isSome := by
  cases phase : machine.phase <;> simp only [resume, phase] <;> rfl

end Machine

namespace Wiring

variable {World Other : Type} {wiring : Wiring World} {other : Wiring Other}
  {machine otherMachine : Machine} {world left : World} {otherWorld otherLeft : Other}
  {stop stop' : Stop} {stops stops' : List Stop} {program : Program}
  {answers : List (Option Word)}

theorem Continues.writes_eq (continues : wiring.Continues machine world stop left) :
    stop.writes = if wiring.sink.isSome then machine.outgoing else [] := by
  cases continues with
  | advanced phase | unfed phase | fed phase | halted phase | faulted phase =>
      simp [Stop.writes, Machine.outgoing, phase]
  | dropped phase missing => simp [Stop.writes, missing]
  | wrote phase connected => simp [Stop.writes, Machine.outgoing, phase, connected]

/-- Nothing but the words that are read distinguishes two resumes of one machine. -/
theorem Resumes.seen_eq (connected : wiring.source.isSome) (otherConnected : other.source.isSome)
    (resumed : wiring.Resumes machine world stop left)
    (again : other.Resumes machine otherWorld stop' otherLeft)
    (same : stop'.reads = stop.reads) : stop'.seen = stop.seen := by
  obtain ⟨fuel, resumed⟩ := resumed
  obtain ⟨otherFuel, again⟩ := again
  cases phase : machine.phase with
  | running =>
      rw [resume_running phase] at resumed again
      exact Machine.advance_unique (congrArg Prod.fst again) (congrArg Prod.fst resumed)
  | reading instruction =>
      obtain ⟨take, connected⟩ := Option.isSome_iff_exists.mp connected
      obtain ⟨otherTake, otherConnected⟩ := Option.isSome_iff_exists.mp otherConnected
      rw [resume_fed phase connected] at resumed
      rw [resume_fed phase otherConnected] at again
      have calls : [Call.read (take world).1] = stop.calls := congrArg (·.2.2) resumed
      have otherCalls : [Call.read (otherTake otherWorld).1] = stop'.calls := congrArg (·.2.2) again
      simp only [Stop.reads, ← calls, ← otherCalls, List.filterMap_cons, List.filterMap_nil,
        List.cons.injEq, and_true] at same
      rw [same] at again
      exact Option.some.inj ((congrArg Prod.fst again).symm.trans (congrArg Prod.fst resumed))
  | writing word | halted | faulted fault =>
      simp only [Machine.resume, phase] at resumed again
      exact Option.some.inj ((congrArg Prod.fst again).symm.trans (congrArg Prod.fst resumed))

/-- As long as they read the same words, two runs of a program stop in the same places. -/
theorem runs_agree (connected : wiring.source.isSome) (otherConnected : other.source.isSome)
    (reached : Reaches wiring.Visits (.ofProgram program) stops machine)
    (otherReached : Reaches other.Visits (.ofProgram program) stops' otherMachine)
    (together : stops'.length = stops.length) (supplied : Stop.Supplied answers stops)
    (otherSupplied : Stop.Supplied answers stops')
    (few : (stops.flatMap Stop.reads).length ≤ answers.length) :
    otherMachine = machine ∧ stops'.map Stop.seen = stops.map Stop.seen ∧
      stops'.flatMap Stop.reads = stops.flatMap Stop.reads ∧
      (other.sink.isSome = wiring.sink.isSome →
        stops'.map Stop.writes = stops.map Stop.writes) := by
  induction reached generalizing stops' otherMachine with
  | start =>
      cases otherReached with
      | start => exact ⟨rfl, rfl, rfl, fun _ => rfl⟩
      | move => simp at together
  | @move stops before machine stop _ visited ih =>
      cases otherReached with
      | start => simp at together
      | @move stops' otherBefore _ stop' otherReached otherVisited =>
          simp only [List.length_append, List.length_singleton, Nat.add_right_cancel_iff] at together
          simp only [List.flatMap_append, List.length_append, List.flatMap_singleton] at few
          obtain ⟨rfl, seen, reads, writes⟩ :=
            ih otherReached together supplied.init otherSupplied.init (by omega)
          obtain ⟨rfl, world, left, resumed⟩ := visited
          obtain ⟨rfl, otherWorld, otherLeft, again⟩ := otherVisited
          have lengths : stop'.reads.length = stop.reads.length := by
            rw [resumed.continues.length_reads, again.continues.length_reads]
            simp only [connected, otherConnected]
          have row := supplied.reads_prefix (by simpa using few)
          have otherRow := otherSupplied.reads_prefix (by simpa [reads, lengths] using few)
          have readsSame : stop'.reads = stop.reads := by
            have whole := List.prefix_of_prefix_length_le otherRow row (by simp [reads, lengths])
            simp only [List.flatMap_append, List.flatMap_singleton, reads,
              List.prefix_append_right_inj] at whole
            exact whole.eq_of_length lengths
          have seenSame := resumed.seen_eq connected otherConnected again readsSame
          refine ⟨congrArg Prod.fst seenSame, ?_, ?_, fun sinks => ?_⟩
          · rw [List.map_append, List.map_append, seen, List.map_singleton, List.map_singleton,
              seenSame]
          · rw [List.flatMap_append, List.flatMap_append, reads, List.flatMap_singleton,
              List.flatMap_singleton, readsSame]
          · rw [List.map_append, List.map_append, writes sinks, List.map_singleton,
              List.map_singleton, resumed.continues.writes_eq, again.continues.writes_eq, sinks]

/-- Two runs that have been given the same words see the same and write the same, up to the
read after these words, and then go on or hang together. And a pipe into which each word is
pushed when it is asked for does as well as one that holds all the words from the start. -/
theorem run_depends_on_words_read (program : Program) :
    (∀ (World Other : Type) (wiring : Wiring World) (other : Wiring Other)
        (answers : List (Option Word)) (stops stops' : List Stop) (machine otherMachine : Machine),
      wiring.source.isSome → other.source.isSome →
      Reaches wiring.Visits (.ofProgram program) stops machine →
      Reaches other.Visits (.ofProgram program) stops' otherMachine →
      stops'.length = stops.length →
      Stop.Supplied answers stops → Stop.Supplied answers stops' →
      (stops.flatMap Stop.reads).length ≤ answers.length →
        stops'.map Stop.seen = stops.map Stop.seen ∧
        (other.sink.isSome = wiring.sink.isSome →
          stops'.map Stop.writes = stops.map Stop.writes) ∧
        ∀ fuel world otherWorld,
          ((otherMachine.resume other.ports fuel).run otherWorld).1.isSome =
            ((machine.resume wiring.ports fuel).run world).1.isSome) ∧
    ∀ (values : List Word) (outcomes : List Outcome) (machine : Machine) (outbox : Array Word),
      (∃ session, Reaches Session.Resumes (.piped program values) outcomes session ∧
        session.machine = machine ∧ session.ends.outbox = outbox) ↔
      ∃ session left, Reaches Session.Prompts (.piped program [], values) outcomes (session, left) ∧
        session.machine = machine ∧ session.ends.outbox = outbox := by
  constructor
  · intro World Other wiring other answers stops stops' machine otherMachine connected
      otherConnected reached otherReached together supplied otherSupplied few
    obtain ⟨rfl, seen, _, writes⟩ := runs_agree connected otherConnected reached otherReached
      together supplied otherSupplied few
    exact ⟨seen, writes, fun fuel world otherWorld =>
      Machine.isSome_resume other.ports wiring.ports _ fuel otherWorld world⟩
  · intro values outcomes machine outbox
    constructor
    · rintro ⟨session, reached, rfl, rfl⟩
      exact ⟨_, _, Session.reaches_prompts_iff.mpr ⟨session, reached, rfl⟩,
        session.machine_heldBack, session.outbox_heldBack⟩
    · rintro ⟨prompted, left, reached, rfl, rfl⟩
      obtain ⟨session, reached, same⟩ := Session.reaches_prompts_iff.mp reached
      refine ⟨session, reached, ?_, ?_⟩
      · rw [← session.machine_heldBack, ← same]
      · rw [← session.outbox_heldBack, ← same]

/-- A source that counts for ever, beside a sink that takes everything. -/
def counting : Wiring Word where
  source := some fun next => (some next, next + 1)
  sink := some fun _ next => next

/-- A queue that is empty after its first word, and a counter that begins with that word: up to
the announcement of the second read nobody can tell them apart. -/
theorem one_word_does_not_tell :
    ∃ stops stops' machine otherMachine,
      Reaches collecting.Visits (.ofProgram ⟨[3, 0, 4, 0, 3, 0, 99]⟩) stops machine ∧
      Reaches counting.Visits (.ofProgram ⟨[3, 0, 4, 0, 3, 0, 99]⟩) stops' otherMachine ∧
      stops.map Stop.outcome =
        [.ok .aboutToInput, .ok .afterInput, .ok .aboutToOutput, .ok .afterOutput,
          .ok .aboutToInput] ∧
      stops.flatMap Stop.reads = [some 7] ∧ Stop.Supplied [some 7] stops ∧
      Stop.Supplied [some 7] stops' ∧ stops'.map Stop.seen = stops.map Stop.seen ∧
      stops'.map Stop.writes = stops.map Stop.writes := by
  have started : Reaches collecting.Visits (.ofProgram ⟨[3, 0, 4, 0, 3, 0, 99]⟩) [] _ := .start
  have reached := ((((started.move (visits_of_resume 1 ([7], []) rfl)).move
    (visits_of_resume 0 ([7], []) rfl)).move (visits_of_resume 1 ([], []) rfl)).move
    (visits_of_resume 0 ([], []) rfl)).move (visits_of_resume 1 ([], [7]) rfl)
  have otherStarted : Reaches counting.Visits (.ofProgram ⟨[3, 0, 4, 0, 3, 0, 99]⟩) [] _ := .start
  have otherReached := ((((otherStarted.move (visits_of_resume 1 7 rfl)).move
    (visits_of_resume 0 7 rfl)).move (visits_of_resume 1 8 rfl)).move
    (visits_of_resume 0 8 rfl)).move (visits_of_resume 1 8 rfl)
  obtain ⟨agree, _⟩ := run_depends_on_words_read ⟨[3, 0, 4, 0, 3, 0, 99]⟩
  obtain ⟨seen, writes, _⟩ := agree (List Word × List Word) Word collecting counting [some 7] _ _
    _ _ rfl rfl reached otherReached rfl List.prefix_rfl List.prefix_rfl (Nat.le_refl 1)
  exact ⟨_, _, _, _, reached, otherReached, rfl, rfl, List.prefix_rfl, List.prefix_rfl, seen,
    writes rfl⟩

end Wiring

end Intcode
