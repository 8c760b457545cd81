import Intcode.Proofs.Machine.Driving

namespace Intcode

/-- A machine in its world, and what it is connected to there. -/
structure Rig (World : Type) extends Place World where
  wiring : Wiring World

/-- Something that is done to a rig. -/
inductive Deed (World : Type) where
  | drive (drive : Drive)
  /-- The world is changed from outside. A word is pushed into a pipe, for one. -/
  | push (change : World → World)
  | connectInput (source : World → Option Word × World)
  | connectOutput (sink : Word → World → World)

namespace Deed

variable {World : Type}

/-- What a deed does to a rig, the machine apart. -/
def aside (rig : Rig World) : Deed World → Rig World
  | drive _ => rig
  | push change => { rig with world := change rig.world }
  | connectInput source => { rig with wiring.source := some source }
  | connectOutput sink => { rig with wiring.sink := some sink }

/-- What a deed does to a rig, and the outcomes that the machine hands back. -/
def perform (fuel : Nat) (rig : Rig World) : Deed World → Option (Rig World × List Outcome)
  | drive call =>
      let called := (call.perform rig.wiring.ports fuel rig.machine).run rig.world
      called.1.map fun (machine, items) => ({ rig with machine, world := called.2 }, items)
  | push change => some (aside rig (push change), [])
  | connectInput source => some (aside rig (connectInput source), [])
  | connectOutput sink => some (aside rig (connectOutput sink), [])

/-- Deeds in a row, and what the machine hands back for each. -/
def performAll (fuel : Nat) :
    Rig World → List (Deed World) → Option (Rig World × List (List Outcome))
  | rig, [] => some (rig, [])
  | rig, deed :: rest => do
      let (rig, items) ← deed.perform fuel rig
      let (rig, later) ← performAll fuel rig rest
      pure (rig, items :: later)

/-- What a machine hands back that has ended with this outcome. -/
def echo (outcome : Outcome) : Deed World → List Outcome
  | drive .resume => [outcome]
  | drive .next | drive (.take _) | push _ | connectInput _ | connectOutput _ => []

/-- What a deed makes of the world of a machine that is over. -/
def change (world : World) : Deed World → World
  | push change => change world
  | drive _ | connectInput _ | connectOutput _ => world

end Deed

/-- A deed that is done, with the outcomes handed back. -/
def Rig.Does {World : Type} (before : Rig World) (record : Deed World × List Outcome)
    (after : Rig World) : Prop :=
  ∃ fuel, record.1.perform fuel before = some (after, record.2)

variable {World : Type} {ports : Ports (StateM World)} {fuel : Nat} {machine : Machine}
  {outcome : Outcome} {place final : Place World} {pauses : List (Pause World)}
  {rig before after : Rig World} {deed : Deed World} {record : Deed World × List Outcome}
  {history : List (Deed World × List Outcome)}

/-- After this outcome there is no other. -/
def Outcome.IsLast (outcome : Outcome) : Prop :=
  outcome = .ok .halted ∨ ∃ fault, outcome = .error fault

theorem Outcome.Stands.isOver (stands : outcome.Stands machine.phase) (last : outcome.IsLast) :
    machine.isOver = true := by
  rw [Machine.isOver]
  generalize machine.phase = phase at stands
  cases stands with
  | halted | faulted => rfl
  | aboutToInput | afterInput | aboutToOutput | afterOutput => simp [IsLast] at last

theorem Ports.stands_of_heard (reached : Reaches ports.Passes place pauses final)
    (last : outcome.IsLast) (heard : outcome ∈ pauses.map Pause.outcome) :
    outcome.Stands final.machine.phase := by
  obtain ⟨pause, passed, rfl⟩ := List.mem_map.mp heard
  obtain ⟨front, rest, rfl⟩ := List.append_of_mem passed
  obtain ⟨_, _, behind⟩ := reached.of_append
  obtain ⟨next, passes, later⟩ := behind.uncons
  have stands := passes.2.stands
  obtain ⟨_, rfl⟩ := eq_of_over (stands.isOver last) later
  exact stands

namespace Deed

theorem machine_aside (rig : Rig World) (deed : Deed World) :
    (aside rig deed).machine = rig.machine := by
  cases deed <;> rfl

theorem world_aside (rig : Rig World) (deed : Deed World) :
    (aside rig deed).world = deed.change rig.world := by
  cases deed <;> rfl

theorem perform_over (finished : rig.machine.isOver = true)
    (stands : outcome.Stands rig.machine.phase) :
    deed.perform fuel rig = some (deed.aside rig, deed.echo outcome) := by
  cases deed with
  | drive call =>
      cases call with
      | resume =>
          simp only [perform, Drive.perform_resume, Machine.resume_over finished stands]
          rfl
      | next =>
          simp only [perform, Drive.perform_next, Machine.next_over finished]
          rfl
      | take count =>
          simp only [perform, Drive.perform, Machine.take_over finished]
          rfl
  | push | connectInput | connectOutput => rfl

theorem performAll_over (fuel : Nat) (finished : rig.machine.isOver = true)
    (stands : outcome.Stands rig.machine.phase) (deeds : List (Deed World)) :
    ∃ after, performAll fuel rig deeds = some (after, deeds.map (echo outcome)) ∧
      after.machine = rig.machine ∧ after.world = deeds.foldl change rig.world := by
  induction deeds generalizing rig with
  | nil => exact ⟨rig, rfl, rfl, rfl⟩
  | cons deed rest ih =>
      have machine := machine_aside rig deed
      rw [← machine] at finished stands
      obtain ⟨after, performed, same, world⟩ := ih finished stands
      rw [machine] at finished stands
      rw [world_aside] at world
      refine ⟨after, ?_, same.trans machine, world⟩
      have first : deed.perform fuel rig = some (deed.aside rig, deed.echo outcome) :=
        perform_over finished stands
      simp only [performAll, first, Option.bind_eq_bind, Option.bind_some, performed]
      rfl

end Deed

namespace Rig

/-- A deed takes the machine along its passage or leaves it alone. -/
theorem Does.delivers_or_aside (does : before.Does record after) :
    (∃ most pauses,
      before.wiring.ports.Delivers before.toPlace most record.2 pauses after.toPlace) ∨
    after.machine = before.machine ∧ record.2 = [] := by
  obtain ⟨fuel, performed⟩ := does
  obtain ⟨deed, items⟩ := record
  cases deed with
  | drive call =>
      rcases driven : (call.perform before.wiring.ports fuel before.machine).run before.world with
        ⟨_ | ⟨machine, items⟩, world⟩ <;> simp only [Deed.perform, driven] at performed <;>
        cases performed
      exact .inl ⟨call.count, Drive.delivers_of_perform driven⟩
  | push | connectInput | connectOutput =>
      cases performed
      exact .inr ⟨rfl, rfl⟩

theorem Does.stands (does : before.Does record after) (last : outcome.IsLast)
    (heard : outcome ∈ record.2) : outcome.Stands after.machine.phase := by
  rcases does.delivers_or_aside with ⟨_, _, reached, _, repeats, items, repeated⟩ | ⟨_, none⟩
  · rw [items] at heard
    rcases List.mem_append.mp heard with passed | again
    · exact Ports.stands_of_heard reached last passed
    · exact (repeated outcome again).2
  · rw [none] at heard
    cases heard

theorem reaches_of_performAll {deeds : List (Deed World)} {items : List (List Outcome)}
    (performed : Deed.performAll fuel rig deeds = some (after, items)) :
    Reaches Rig.Does rig (deeds.zip items) after := by
  induction deeds generalizing rig items with
  | nil =>
      cases performed
      exact .start
  | cons deed deeds ih =>
      obtain ⟨⟨next, first⟩, here, rest⟩ := Option.bind_eq_some_iff.mp performed
      obtain ⟨⟨_, later⟩, behind, same⟩ := Option.bind_eq_some_iff.mp rest
      cases same
      exact .cons ⟨fuel, here⟩ (ih behind)

/-- Once one of the outcomes was the last one the machine has stayed where it was. -/
theorem stands_of_reaches (reached : Reaches Rig.Does rig history after) (last : outcome.IsLast)
    (returned : ∃ record ∈ history, outcome ∈ record.2) : outcome.Stands after.machine.phase := by
  induction reached with
  | start => simp at returned
  | @move history before after record _ does ih =>
      obtain ⟨heard, member, said⟩ := returned
      rcases List.mem_append.mp member with earlier | now
      · have stands := ih ⟨heard, earlier, said⟩
        obtain ⟨fuel, performed⟩ := does
        rw [Deed.perform_over (stands.isOver last) stands] at performed
        rw [← (Prod.mk.inj (Option.some.inj performed)).1, Deed.machine_aside]
        exact stands
      · rw [List.mem_singleton] at now
        subst now
        exact does.stands last said

/-- Once a machine has said that it halted or failed, whatever is done to it and around it: a
resume says the same again, the iterator has nothing more, memory, pointer and base are what they
were, and in the world there is no change but what was pushed. -/
theorem halting_and_faulting_are_absorbing (program : Program) (wiring : Wiring World)
    (world : World) (reached : Reaches Rig.Does ⟨⟨.ofProgram program, world⟩, wiring⟩ history rig)
    (last : outcome = .ok .halted ∨ ∃ fault, outcome = .error fault)
    (returned : ∃ record ∈ history, outcome ∈ record.2) (deeds : List (Deed World)) (fuel : Nat) :
    ∃ after, Deed.performAll fuel rig deeds = some (after, deeds.map (Deed.echo outcome)) ∧
      after.machine.memory = rig.machine.memory ∧ after.machine.pointer = rig.machine.pointer ∧
      after.machine.base = rig.machine.base ∧ after.machine.phase = rig.machine.phase ∧
      after.world = deeds.foldl Deed.change rig.world := by
  have stands := stands_of_reaches reached last returned
  obtain ⟨after, performed, machine, world⟩ :=
    Deed.performAll_over fuel (stands.isOver last) stands deeds
  rw [← machine]
  exact ⟨after, performed, rfl, rfl, rfl, rfl, world⟩

/-- Nothing is connected. -/
def unconnected : Wiring World := { source := none, sink := none }

/-- The input that a machine failed for want of comes too late. -/
theorem late_input_is_not_taken :
    let fault : Fault := { kind := .inputNotConnected, address := 0 }
    let failed : Rig (List Word × List Word) :=
      ⟨⟨{ memory := .ofProgram ⟨[3, 0, 99]⟩, pointer := 2, phase := .faulted fault }, [], []⟩,
        unconnected⟩
    ∃ after, Deed.performAll 1 failed
        [.connectInput fun (queue, rest) => (queue.head?, queue.tail, rest),
          .push fun (queue, rest) => (queue ++ [7], rest), .drive .resume, .drive .next,
          .drive (.take 2), .drive .resume] =
        some (after, [[], [], [.error fault], [], [], [.error fault]]) ∧
      after.machine.memory = .ofProgram ⟨[3, 0, 99]⟩ ∧ after.world = ([7], []) := by
  intro fault failed
  have reached := reaches_of_performAll (show Deed.performAll 1
    ⟨⟨.ofProgram ⟨[3, 0, 99]⟩, [], []⟩, unconnected⟩ [.drive .resume, .drive .resume] =
      some (failed, [[.ok .aboutToInput], [.error fault]]) from rfl)
  obtain ⟨after, performed, memory, _, _, _, world⟩ :=
    halting_and_faulting_are_absorbing _ _ _ reached (.inr ⟨fault, rfl⟩)
      ⟨(.drive .resume, [.error fault]), by simp, List.mem_singleton_self _⟩ _ 1
  exact ⟨after, performed, memory, world⟩

end Rig

end Intcode
