import Intcode.Machine.Run
import Intcode.Proofs.Wiring

namespace Intcode

/-- Where a machine stands in its world. -/
structure Place (World : Type) where
  machine : Machine
  world : World

/-- Where a machine gives control back, and what it says there. -/
structure Pause (World : Type) extends Place World where
  outcome : Outcome

variable {World : Type} {ports : Ports (StateM World)} {fuel more count : Nat}
  {machine after : Machine} {world left : World} {outcome : Outcome} {place final : Place World}
  {pause : Pause World} {pauses : List (Pause World)} {answer : Except Fault Memory}

/-- A resume that answers. -/
def Ports.Resumes (ports : Ports (StateM World)) (before : Place World) (pause : Pause World)
    (after : Place World) : Prop :=
  pause.toPlace = after ∧ ∃ fuel, (before.machine.resume ports fuel).run before.world =
    (some (after.machine, pause.outcome), after.world)

/-- A resume of a machine that has neither halted nor faulted. -/
def Ports.Passes (ports : Ports (StateM World)) (before : Place World) (pause : Pause World)
    (after : Place World) : Prop :=
  before.machine.isOver = false ∧ ports.Resumes before pause after

namespace Machine

/-- The answer of a run that has come to an end. -/
def verdict? (machine : Machine) : Option (Except Fault Memory) :=
  match machine.phase with
  | .halted => some (.ok machine.memory)
  | .faulted fault => some (.error fault)
  | .running | .reading _ | .writing _ => none

theorem isOver_of_verdict? (verdict : machine.verdict? = some answer) : machine.isOver = true := by
  rw [isOver]
  rw [verdict?] at verdict
  cases phase : machine.phase with
  | halted | faulted => rfl
  | running | reading | writing =>
      rw [phase] at verdict
      cases verdict

section Resume

theorem resume_running (phase : machine.phase = .running) :
    (machine.resume ports fuel).run world = (machine.advance fuel, world) := by
  simp only [resume, phase]
  rfl

theorem resume_mono {resumed : Machine × Outcome}
    (resumes : (machine.resume ports fuel).run world = (some resumed, left))
    (enough : fuel ≤ more) : (machine.resume ports more).run world = (some resumed, left) := by
  cases phase : machine.phase with
  | running =>
      rw [resume_running phase] at resumes ⊢
      obtain ⟨advanced, rfl⟩ := Prod.mk.inj resumes
      rw [advance_mono advanced enough]
  | reading | writing | halted | faulted => simpa only [resume, phase] using resumes

/-- Once a machine is over it says so again and again, and touches nothing. -/
theorem resume_over (finished : machine.isOver = true) (stands : outcome.Stands machine.phase) :
    (machine.resume ports fuel).run world = (some (machine, outcome), world) := by
  rw [isOver] at finished
  unfold resume
  generalize machine.phase = phase at finished stands ⊢
  cases stands with
  | halted | faulted => rfl
  | aboutToInput | afterInput | aboutToOutput | afterOutput => cases finished

theorem exists_stands (finished : machine.isOver = true) :
    ∃ outcome : Outcome, outcome.Stands machine.phase := by
  rw [isOver] at finished
  generalize machine.phase = phase at finished ⊢
  cases phase with
  | halted => exact ⟨_, .halted⟩
  | faulted fault => exact ⟨_, .faulted fault⟩
  | running | reading | writing => cases finished

theorem resume_keeps (finished : machine.isOver = true)
    (resumed : (machine.resume ports fuel).run world = (some (after, outcome), left)) :
    after = machine ∧ left = world := by
  obtain ⟨again, stands⟩ := exists_stands finished
  rw [resume_over finished stands] at resumed
  cases resumed
  exact ⟨rfl, rfl⟩

theorem resume_stands (resumed : (machine.resume ports fuel).run world =
    (some (after, outcome), left)) : outcome.Stands after.phase := by
  cases phase : machine.phase with
  | running =>
      rw [resume_running phase] at resumed
      exact (advance_leaves (congrArg Prod.fst resumed)).stands
  | reading instruction =>
      simp only [resume, phase] at resumed
      cases received : machine.receive instruction (ports.read.run world).1 with
      | mk next reason =>
          have answered : (some (next, reason), (ports.read.run world).2) =
              (some (after, outcome), left) := by
            rw [← received]
            exact resumed
          cases answered
          rcases receive_cases received with ⟨_, _, _, _, rfl, rfl⟩ | ⟨fault, rfl, rfl⟩
          · exact .afterInput
          · exact .faulted fault
  | writing word =>
      simp only [resume, phase] at resumed
      cases (Prod.mk.inj resumed).1
      exact .afterOutput
  | halted =>
      simp only [resume, phase] at resumed
      cases resumed
      rw [phase]
      exact .halted
  | faulted fault =>
      simp only [resume, phase] at resumed
      cases resumed
      rw [phase]
      exact .faulted fault

end Resume

section Next

theorem next_over (finished : machine.isOver = true) :
    (machine.next ports fuel).run world = (some (machine, none), world) := by
  simp only [next, finished, if_true]
  rfl

theorem next_eq (live : machine.isOver = false) :
    (machine.next ports fuel).run world =
      (((machine.resume ports fuel).run world).1.map fun (machine, outcome) =>
        (machine, some outcome), ((machine.resume ports fuel).run world).2) := by
  simp only [next, live, Bool.false_eq_true, if_false]
  rfl

theorem take_over (finished : machine.isOver = true) :
    (machine.take ports fuel count).run world = (some (machine, []), world) := by
  cases count with
  | zero => rfl
  | succ count =>
      rw [take, StateT.run_bind, next_over finished]
      rfl

theorem take_none (live : machine.isOver = false)
    (stopped : (machine.resume ports fuel).run world = (none, left)) :
    (machine.take ports fuel (count + 1)).run world = (none, left) := by
  rw [take, StateT.run_bind, next_eq live, stopped]
  rfl

theorem take_some (live : machine.isOver = false)
    (resumed : (machine.resume ports fuel).run world = (some (after, outcome), left)) :
    (machine.take ports fuel (count + 1)).run world =
      (((after.take ports fuel count).run left).1.map fun (machine, rest) =>
        (machine, outcome :: rest), ((after.take ports fuel count).run left).2) := by
  rw [take, StateT.run_bind, next_eq live, resumed]
  rfl

end Next

section Run

/-- How a run goes on after a resume with this outcome. -/
def runOn (ports : Ports (StateM World)) (fuel : Nat) (machine : Machine) :
    Outcome → StateM World (Option (Except Fault Memory))
  | .ok .halted => pure (some (.ok machine.memory))
  | .ok _ => machine.run ports (fun _ => pure ()) fuel
  | .error fault => pure (some (.error fault))

theorem run_none (stopped : (machine.resume ports fuel).run world = (none, left)) :
    (machine.run ports (fun _ => pure ()) (fuel + 1)).run world = (none, left) := by
  rw [run, StateT.run_bind, stopped]
  rfl

theorem run_some
    (resumed : (machine.resume ports fuel).run world = (some (after, outcome), left)) :
    (machine.run ports (fun _ => pure ()) (fuel + 1)).run world =
      (after.runOn ports fuel outcome).run left := by
  rw [run, StateT.run_bind, resumed]
  cases outcome with
  | error fault => rfl
  | ok reason => cases reason <;> rfl

/-- A run is over with an outcome that is the last one, and goes on after any other. -/
theorem runOn_cases (stands : outcome.Stands after.phase) :
    (∃ answer, after.verdict? = some answer ∧ after.isOver = true ∧
      after.runOn ports fuel outcome = pure (some answer)) ∨
    (after.isOver = false ∧
      after.runOn ports fuel outcome = after.run ports (fun _ => pure ()) fuel) := by
  rw [verdict?, isOver]
  generalize after.phase = phase at stands ⊢
  cases stands with
  | halted | faulted => exact .inl ⟨_, rfl, rfl, rfl⟩
  | aboutToInput | afterInput | aboutToOutput | afterOutput => exact .inr ⟨rfl, rfl⟩

end Run

end Machine

namespace Ports

theorem Resumes.stands (resumes : ports.Resumes place pause final) :
    pause.outcome.Stands final.machine.phase := by
  obtain ⟨_, _, resumed⟩ := resumes
  exact Machine.resume_stands resumed

theorem Resumes.unique {again : Pause World} {other : Place World}
    (resumes : ports.Resumes place pause final) (resumesAgain : ports.Resumes place again other) :
    again = pause ∧ other = final := by
  obtain ⟨rfl, fuel, resumed⟩ := resumes
  obtain ⟨rfl, more, resumedAgain⟩ := resumesAgain
  have most := Machine.resume_mono resumed (Nat.le_max_left fuel more)
  rw [Machine.resume_mono resumedAgain (Nat.le_max_right fuel more)] at most
  obtain ⟨⟨machine, world⟩, outcome⟩ := pause
  obtain ⟨⟨machineAgain, worldAgain⟩, outcomeAgain⟩ := again
  cases most
  exact ⟨rfl, rfl⟩

theorem Passes.of_resume (live : machine.isOver = false)
    (resumed : (machine.resume ports fuel).run world = (some (after, outcome), left)) :
    ports.Passes ⟨machine, world⟩ ⟨⟨after, left⟩, outcome⟩ ⟨after, left⟩ :=
  ⟨live, rfl, fuel, resumed⟩

theorem Passes.unique {again : Pause World} {other : Place World}
    (passes : ports.Passes place pause final) (passesAgain : ports.Passes place again other) :
    again = pause ∧ other = final :=
  passes.2.unique passesAgain.2

/-- There is no passage from where a machine is over. -/
theorem eq_of_over (finished : place.machine.isOver = true)
    (reached : Reaches ports.Passes place pauses final) : pauses = [] ∧ final = place := by
  cases pauses with
  | nil => exact ⟨rfl, reached.eq_start⟩
  | cons pause pauses =>
      obtain ⟨_, ⟨live, _⟩, _⟩ := reached.uncons
      rw [finished] at live
      cases live

/-- The items of an iterator are the outcomes of the pauses it passes through. It yields as many
as are asked for, or all. -/
theorem reaches_of_take {items : List Outcome}
    (taken : (machine.take ports fuel count).run world = (some (after, items), left)) :
    ∃ pauses, Reaches ports.Passes ⟨machine, world⟩ pauses ⟨after, left⟩ ∧
      pauses.map Pause.outcome = items ∧
      (pauses.length = count ∨ pauses.length < count ∧ after.isOver = true) := by
  induction count generalizing machine world items with
  | zero =>
      cases taken
      exact ⟨[], .start, rfl, .inl rfl⟩
  | succ count ih =>
      cases finished : machine.isOver with
      | true =>
          rw [Machine.take_over finished] at taken
          cases taken
          exact ⟨[], .start, rfl, .inr ⟨Nat.succ_pos _, finished⟩⟩
      | false =>
          rcases resumed : (machine.resume ports fuel).run world with
            ⟨_ | ⟨next, outcome⟩, middle⟩
          · rw [Machine.take_none finished resumed] at taken
            cases taken
          · rw [Machine.take_some finished resumed] at taken
            obtain ⟨rest, left⟩ := Prod.mk.inj taken
            obtain ⟨⟨_, items⟩, later, same⟩ := Option.map_eq_some_iff.mp rest
            cases same
            obtain ⟨pauses, reached, rfl, ends⟩ := ih (Prod.ext later left)
            exact ⟨_, .cons (.of_resume finished resumed) reached, rfl, by simpa using ends⟩

/-- With enough fuel an iterator gets as far as there is a passage. -/
theorem exists_take (reached : Reaches ports.Passes place pauses final)
    (ends : pauses.length = count ∨ pauses.length < count ∧ final.machine.isOver = true) :
    ∃ least, ∀ fuel, least ≤ fuel → (place.machine.take ports fuel count).run place.world =
      (some (final.machine, pauses.map Pause.outcome), final.world) := by
  induction pauses generalizing place count with
  | nil =>
      obtain rfl := reached.eq_start
      refine ⟨0, fun fuel _ => ?_⟩
      rcases ends with rfl | ⟨_, finished⟩
      · rfl
      · exact Machine.take_over finished
  | cons pause pauses ih =>
      obtain ⟨middle, ⟨live, same, fuel, resumed⟩, later⟩ := reached.uncons
      obtain ⟨count, rfl⟩ : ∃ before, count = before + 1 := ⟨count - 1, by
        simp only [List.length_cons] at ends
        omega⟩
      obtain ⟨least, taken⟩ := ih later (by simpa using ends)
      refine ⟨max fuel least, fun more enough => ?_⟩
      rw [Machine.take_some live (Machine.resume_mono resumed (by omega)), taken more (by omega)]
      rfl

/-- A run passes on until the machine is over, and answers how it ended. -/
theorem reaches_of_run
    (ran : (machine.run ports (fun _ => pure ()) fuel).run world = (some answer, left)) :
    ∃ pauses after, Reaches ports.Passes ⟨machine, world⟩ pauses ⟨after, left⟩ ∧
      after.verdict? = some answer := by
  induction fuel generalizing machine world with
  | zero => cases ran
  | succ fuel ih =>
      rcases resumed : (machine.resume ports fuel).run world with ⟨_ | ⟨next, outcome⟩, middle⟩
      · rw [Machine.run_none resumed] at ran
        cases ran
      · rw [Machine.run_some resumed] at ran
        cases finished : machine.isOver with
        | true =>
            obtain ⟨rfl, rfl⟩ := Machine.resume_keeps finished resumed
            rcases Machine.runOn_cases (Machine.resume_stands resumed) with
              ⟨_, verdict, _, ends⟩ | ⟨live, _⟩
            · rw [ends] at ran
              cases ran
              exact ⟨[], _, .start, verdict⟩
            · rw [finished] at live
              cases live
        | false =>
            have passed := Passes.of_resume finished resumed
            rcases Machine.runOn_cases (Machine.resume_stands resumed) with
              ⟨_, verdict, _, ends⟩ | ⟨_, goesOn⟩
            · rw [ends] at ran
              cases ran
              exact ⟨_, _, .cons passed .start, verdict⟩
            · rw [goesOn] at ran
              obtain ⟨pauses, after, reached, verdict⟩ := ih ran
              exact ⟨_, after, .cons passed reached, verdict⟩

/-- With enough fuel a run answers if there is a passage to where the machine is over. -/
theorem exists_run (reached : Reaches ports.Passes place pauses final)
    (verdict : final.machine.verdict? = some answer) :
    ∃ least, ∀ fuel, least ≤ fuel →
      (place.machine.run ports (fun _ => pure ()) fuel).run place.world =
        (some answer, final.world) := by
  have finished := Machine.isOver_of_verdict? verdict
  induction pauses generalizing place with
  | nil =>
      obtain rfl := reached.eq_start
      obtain ⟨outcome, stands⟩ := Machine.exists_stands finished
      refine ⟨1, fun fuel enough => ?_⟩
      obtain ⟨fuel, rfl⟩ : ∃ before, fuel = before + 1 := ⟨fuel - 1, by omega⟩
      rw [Machine.run_some (Machine.resume_over finished stands)]
      rcases Machine.runOn_cases stands with ⟨_, ended, _, ends⟩ | ⟨live, _⟩
      · rw [ends, ← verdict, ended]
        rfl
      · rw [finished] at live
        cases live
  | cons pause pauses ih =>
      obtain ⟨middle, ⟨live, same, fuel, resumed⟩, later⟩ := reached.uncons
      obtain ⟨least, ran⟩ := ih later
      refine ⟨max fuel least + 1, fun more enough => ?_⟩
      obtain ⟨more, rfl⟩ : ∃ before, more = before + 1 := ⟨more - 1, by omega⟩
      rw [Machine.run_some (Machine.resume_mono resumed (by omega))]
      rcases Machine.runOn_cases (Machine.resume_stands resumed) with
        ⟨_, ended, stopped, ends⟩ | ⟨_, goesOn⟩
      · obtain ⟨rfl, rfl⟩ := eq_of_over stopped later
        rw [ends, ← verdict, ended]
        rfl
      · rw [goesOn]
        exact ran more (by omega)

end Ports

/-- The passage of a machine at a wiring, seen from the machine alone. -/
theorem Wiring.exists_visits {wiring : Wiring World}
    (reached : Reaches wiring.ports.Passes place pauses final) :
    ∃ stops, Reaches wiring.Visits place.machine stops final.machine := by
  induction reached with
  | start => exact ⟨[], .start⟩
  | @move _ before after pause _ passes ih =>
      obtain ⟨stops, reached⟩ := ih
      obtain ⟨_, rfl, fuel, resumed⟩ := passes
      rw [resume_recorded] at resumed
      rcases recorded : (before.machine.resume wiring.recorded.ports fuel).run
        (before.world, []) with ⟨answer, left, calls⟩
      rw [recorded] at resumed
      cases resumed
      exact ⟨_, reached.move (visits_of_resume fuel before.world recorded)⟩

end Intcode
