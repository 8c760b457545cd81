import Intcode.Proofs.Machine.Passage

namespace Intcode

/-! # Ways of driving a machine

A machine can be run to its end, iterated, or resumed by hand, and these can be mixed. However
it is driven, it passes through the same pauses until it is over. After that it stays where it
is: only a resume still has something to say, and says again how the machine ended.
-/

/-- A call by which somebody drives a machine. -/
inductive Drive where
  | resume
  | next
  | take (count : Nat)
deriving DecidableEq, Repr

namespace Drive

variable {World : Type}

/-- The most items that a call asks for. -/
def count : Drive → Nat
  | resume | next => 1
  | take count => count

/-- What a call does to a machine, and the outcomes that it hands back. -/
def perform (ports : Ports (StateM World)) (fuel : Nat) (machine : Machine) :
    Drive → StateM World (Option (Machine × List Outcome))
  | resume => do
      let answer ← machine.resume ports fuel
      pure (answer.map fun (machine, outcome) => (machine, [outcome]))
  | next => do
      let answer ← machine.next ports fuel
      pure (answer.map fun (machine, item) => (machine, item.toList))
  | take count => machine.take ports fuel count

/-- Calls in a row, and all outcomes that they hand back. -/
def performAll (ports : Ports (StateM World)) (fuel : Nat) :
    Machine → List Drive → StateM World (Option (Machine × List Outcome))
  | machine, [] => pure (some (machine, []))
  | machine, drive :: rest => do
      match ← drive.perform ports fuel machine with
      | none => pure none
      | some (machine, items) =>
          let answer ← performAll ports fuel machine rest
          pure (answer.map fun (machine, later) => (machine, items ++ later))

end Drive

variable {World : Type} {ports : Ports (StateM World)} {fuel most : Nat} {machine after : Machine}
  {world left : World} {outcome : Outcome} {items : List Outcome}
  {place middle final : Place World} {pauses front rest : List (Pause World)} {drive : Drive}
  {drives : List Drive}

/-- As many pauses were passed through as were asked for, or all. -/
def Place.Asked (final : Place World) (most : Nat) (pauses : List (Pause World)) : Prop :=
  pauses.length = most ∨ pauses.length < most ∧ final.machine.isOver = true

/-- On the way from one place to another the outcomes of all pauses were handed back, and nothing
besides. Only how the machine ended may have been repeated. -/
structure Ports.Delivers (ports : Ports (StateM World)) (start : Place World) (most : Nat)
    (items : List Outcome) (pauses : List (Pause World)) (final : Place World) : Prop where
  reached : Reaches ports.Passes start pauses final
  asked : final.Asked most pauses
  items : ∃ repeats, items = pauses.map Pause.outcome ++ repeats ∧
    ∀ outcome ∈ repeats, final.machine.isOver = true ∧ outcome.Stands final.machine.phase

namespace Ports

theorem Delivers.exact (reached : Reaches ports.Passes place pauses final)
    (asked : final.Asked most pauses) :
    ports.Delivers place most (pauses.map Pause.outcome) pauses final :=
  ⟨reached, asked, [], (List.append_nil _).symm, List.forall_mem_nil _⟩

theorem Delivers.append {more : List Outcome} {further : Nat}
    (first : ports.Delivers place most items front middle)
    (later : ports.Delivers middle further more rest final) :
    ports.Delivers place (most + further) (items ++ more) (front ++ rest) final := by
  obtain ⟨reached, asked, repeats, rfl, ended⟩ := first
  obtain ⟨reachedLater, askedLater, again, rfl, endedLater⟩ := later
  cases finished : middle.machine.isOver with
  | true =>
      obtain ⟨rfl, rfl⟩ := eq_of_over finished reachedLater
      rw [List.append_nil]
      refine ⟨reached, ?_, repeats ++ again, by simp, ?_⟩
      · have most : front.length ≤ most := asked.elim Nat.le_of_eq fun fewer => fewer.1.le
        exact (Nat.eq_or_lt_of_le (Nat.le_add_right_of_le most)).imp_right fun fewer =>
          ⟨fewer, finished⟩
      · exact List.forall_mem_append.mpr ⟨ended, endedLater⟩
  | false =>
      obtain rfl : repeats = [] := by
        refine List.eq_nil_iff_forall_not_mem.mpr fun outcome heard => ?_
        rw [(ended outcome heard).1] at finished
        cases finished
      have length : front.length = most := asked.resolve_right fun ⟨_, stopped⟩ => by
        rw [finished] at stopped
        cases stopped
      refine ⟨reached.trans reachedLater, ?_, again, by simp, endedLater⟩
      rw [Place.Asked, List.length_append, length]
      exact askedLater.imp (congrArg (most + ·)) (And.imp_left (Nat.add_lt_add_left · most))

/-- A passage for two calls is one for the first of them, and one from there for the second. -/
theorem exists_between (most further : Nat) (reached : Reaches ports.Passes place pauses final)
    (asked : final.Asked (most + further) pauses) :
    ∃ middle front rest, Reaches ports.Passes place front middle ∧ middle.Asked most front ∧
      Reaches ports.Passes middle rest final ∧ final.Asked further rest := by
  by_cases enough : most ≤ pauses.length
  · rw [← List.take_append_drop most pauses] at reached
    obtain ⟨middle, front, rest⟩ := reached.of_append
    refine ⟨middle, _, _, front, .inl (List.length_take_of_le enough), rest, ?_⟩
    rw [Place.Asked, List.length_drop]
    exact asked.imp (fun length => by omega) (And.imp_left fun length => by omega)
  · have finished : final.machine.isOver = true := by
      rcases asked with length | ⟨_, finished⟩
      · omega
      · exact finished
    exact ⟨final, pauses, [], reached, .inr ⟨by omega, finished⟩, .start,
      (Nat.eq_zero_or_pos further).imp Eq.symm fun some => ⟨some, finished⟩⟩

end Ports

namespace Drive

theorem performAll_some
    (performed : (drive.perform ports fuel machine).run world = (some (after, items), left)) :
    (performAll ports fuel machine (drive :: drives)).run world =
      (((performAll ports fuel after drives).run left).1.map fun (machine, later) =>
        (machine, items ++ later), ((performAll ports fuel after drives).run left).2) := by
  rw [performAll, StateT.run_bind, performed]
  rfl

theorem of_performAll_cons
    (performed : (performAll ports fuel machine (drive :: drives)).run world =
      (some (after, items), left)) :
    ∃ next middle first later,
      (drive.perform ports fuel machine).run world = (some (next, first), middle) ∧
      (performAll ports fuel next drives).run middle = (some (after, later), left) ∧
      items = first ++ later := by
  rcases first : (drive.perform ports fuel machine).run world with ⟨_ | ⟨next, items⟩, middle⟩
  · rw [performAll, StateT.run_bind, first] at performed
    cases performed
  · rw [performAll_some first] at performed
    rcases later : (performAll ports fuel next drives).run middle with ⟨_ | ⟨_, rest⟩, _⟩ <;>
      rw [later] at performed <;> cases performed
    exact ⟨next, middle, items, rest, rfl, later, rfl⟩

theorem perform_resume : (perform ports fuel machine .resume).run world =
    (((machine.resume ports fuel).run world).1.map fun (machine, outcome) => (machine, [outcome]),
      ((machine.resume ports fuel).run world).2) := rfl

theorem perform_next : (perform ports fuel machine .next).run world =
    (((machine.next ports fuel).run world).1.map fun (machine, item) => (machine, item.toList),
      ((machine.next ports fuel).run world).2) := rfl

theorem delivers_of_perform
    (performed : (drive.perform ports fuel machine).run world = (some (after, items), left)) :
    ∃ pauses, ports.Delivers ⟨machine, world⟩ drive.count items pauses ⟨after, left⟩ := by
  cases drive with
  | take count =>
      obtain ⟨pauses, reached, rfl, asked⟩ := Ports.reaches_of_take performed
      exact ⟨pauses, .exact reached asked⟩
  | resume =>
      rcases resumed : (machine.resume ports fuel).run world with ⟨_ | ⟨next, outcome⟩, middle⟩ <;>
        rw [perform_resume, resumed] at performed <;> cases performed
      cases finished : machine.isOver with
      | true =>
          have stands := Machine.resume_stands resumed
          obtain ⟨rfl, rfl⟩ := Machine.resume_keeps finished resumed
          exact ⟨[], .start, .inr ⟨Nat.one_pos, finished⟩, [outcome], rfl,
            List.forall_mem_singleton.mpr ⟨finished, stands⟩⟩
      | false => exact ⟨_, .exact (.cons (.of_resume finished resumed) .start) (.inl rfl)⟩
  | next =>
      rw [perform_next] at performed
      cases finished : machine.isOver with
      | true =>
          rw [Machine.next_over finished] at performed
          cases performed
          exact ⟨[], .exact .start (.inr ⟨Nat.one_pos, finished⟩)⟩
      | false =>
          rcases resumed : (machine.resume ports fuel).run world with
            ⟨_ | ⟨next, outcome⟩, middle⟩ <;>
            rw [Machine.next_eq finished, resumed] at performed <;> cases performed
          exact ⟨_, .exact (.cons (.of_resume finished resumed) .start) (.inl rfl)⟩

theorem one_cases (reached : Reaches ports.Passes place pauses final)
    (asked : final.Asked 1 pauses) :
    (place.machine.isOver = true ∧ final = place) ∨
      (place.machine.isOver = false ∧ ∃ outcome fuel, ∀ more, fuel ≤ more →
        (place.machine.resume ports more).run place.world =
          (some (final.machine, outcome), final.world)) := by
  cases pauses with
  | nil =>
      obtain rfl := reached.eq_start
      rcases asked with none | ⟨_, finished⟩
      · cases none
      · exact .inl ⟨finished, rfl⟩
  | cons pause rest =>
      obtain ⟨middle, ⟨live, same, fuel, resumed⟩, later⟩ := reached.uncons
      have last : rest = [] := by
        refine List.eq_nil_of_length_eq_zero ?_
        rcases asked with length | ⟨length, _⟩ <;> simp only [List.length_cons] at length <;> omega
      subst last
      obtain rfl := later.eq_start
      exact .inr ⟨live, _, fuel, fun more enough => Machine.resume_mono resumed enough⟩

/-- If there is a passage of as many pauses as a call asks for, or to where the machine is over,
the call gets there with enough fuel. -/
theorem exists_perform (reached : Reaches ports.Passes place pauses final)
    (asked : final.Asked drive.count pauses) :
    ∃ least, ∀ fuel, least ≤ fuel → ∃ items,
      (drive.perform ports fuel place.machine).run place.world =
        (some (final.machine, items), final.world) := by
  cases drive with
  | take count =>
      obtain ⟨least, taken⟩ := Ports.exists_take reached asked
      exact ⟨least, fun fuel enough => ⟨_, taken fuel enough⟩⟩
  | resume =>
      rcases one_cases reached asked with ⟨finished, rfl⟩ | ⟨_, outcome, fuel, resumed⟩
      · obtain ⟨outcome, stands⟩ := Machine.exists_stands finished
        refine ⟨0, fun fuel _ => ⟨[outcome], ?_⟩⟩
        rw [perform_resume, Machine.resume_over finished stands]
        rfl
      · refine ⟨fuel, fun more enough => ⟨[outcome], ?_⟩⟩
        rw [perform_resume, resumed more enough]
        rfl
  | next =>
      rcases one_cases reached asked with ⟨finished, rfl⟩ | ⟨live, outcome, fuel, resumed⟩
      · refine ⟨0, fun fuel _ => ⟨[], ?_⟩⟩
        rw [perform_next, Machine.next_over finished]
        rfl
      · refine ⟨fuel, fun more enough => ⟨[outcome], ?_⟩⟩
        rw [perform_next, Machine.next_eq live, resumed more enough]
        rfl

/-- The most items that calls in a row ask for. -/
def total (drives : List Drive) : Nat :=
  (drives.map count).sum

/-- However calls are chosen, they pass through what they ask for together, and hand back the
outcomes. -/
theorem delivers_of_performAll
    (performed : (performAll ports fuel machine drives).run world = (some (after, items), left)) :
    ∃ pauses, ports.Delivers ⟨machine, world⟩ (total drives) items pauses ⟨after, left⟩ := by
  induction drives generalizing machine world items with
  | nil =>
      cases performed
      exact ⟨[], .exact .start (.inl rfl)⟩
  | cons drive drives ih =>
      obtain ⟨next, middle, first, later, here, behind, rfl⟩ := of_performAll_cons performed
      obtain ⟨front, delivers⟩ := delivers_of_perform here
      obtain ⟨rest, deliversLater⟩ := ih behind
      exact ⟨front ++ rest, delivers.append deliversLater⟩

/-- With enough fuel calls in a row get where there is a passage of as many pauses as they ask
for, or to where the machine is over. -/
theorem exists_performAll (reached : Reaches ports.Passes place pauses final)
    (asked : final.Asked (total drives) pauses) :
    ∃ least, ∀ fuel, least ≤ fuel → ∃ items,
      (performAll ports fuel place.machine drives).run place.world =
        (some (final.machine, items), final.world) := by
  induction drives generalizing place pauses with
  | nil =>
      have none : pauses = [] := by
        rcases asked with length | ⟨length, _⟩
        · exact List.eq_nil_of_length_eq_zero length
        · cases length
      subst none
      obtain rfl := reached.eq_start
      exact ⟨0, fun fuel _ => ⟨[], rfl⟩⟩
  | cons drive drives ih =>
      obtain ⟨middle, front, rest, here, askedHere, behind, askedBehind⟩ :=
        Ports.exists_between drive.count (total drives) reached asked
      obtain ⟨least, performed⟩ := exists_perform here askedHere
      obtain ⟨enough, performedLater⟩ := ih behind askedBehind
      refine ⟨max least enough, fun fuel most => ?_⟩
      obtain ⟨items, first⟩ := performed fuel (by omega)
      obtain ⟨more, later⟩ := performedLater fuel (by omega)
      refine ⟨items ++ more, ?_⟩
      rw [performAll_some first, later]
      rfl

end Drive

namespace Ports

/-- The iterator yields these items, and nothing after them. -/
def Exhausts (ports : Ports (StateM World)) (start : Place World) (items : List Outcome)
    (final : Place World) : Prop :=
  ∃ fuel count,
    (start.machine.take ports fuel count).run start.world =
      (some (final.machine, items), final.world) ∧
    (final.machine.next ports fuel).run final.world = (some (final.machine, none), final.world)

theorem exhausts_iff : ports.Exhausts place items final ↔
    ∃ pauses, Reaches ports.Passes place pauses final ∧ pauses.map Pause.outcome = items ∧
      final.machine.isOver = true := by
  constructor
  · rintro ⟨fuel, count, taken, ended⟩
    obtain ⟨pauses, reached, outcomes, _⟩ := reaches_of_take taken
    refine ⟨pauses, reached, outcomes, ?_⟩
    by_contra goesOn
    rw [Machine.next_eq (Bool.eq_false_iff.mpr goesOn)] at ended
    obtain ⟨answered, _⟩ := Prod.mk.inj ended
    obtain ⟨⟨_, outcome⟩, _, same⟩ := Option.map_eq_some_iff.mp answered
    cases same
  · rintro ⟨pauses, reached, rfl, finished⟩
    obtain ⟨least, taken⟩ := exists_take reached (.inl rfl)
    exact ⟨least, pauses.length, taken least (Nat.le_refl _), Machine.next_over finished⟩

end Ports

/-- The answer of a run whose last outcome this is. -/
def Outcome.verdict? (outcome : Outcome) (memory : Memory) : Option (Except Fault Memory) :=
  match outcome with
  | .ok .halted => some (.ok memory)
  | .ok _ => none
  | .error fault => some (.error fault)

theorem Outcome.Stands.verdict?_eq (stands : outcome.Stands machine.phase) :
    machine.verdict? = outcome.verdict? machine.memory := by
  rw [Machine.verdict?]
  generalize machine.phase = phase at stands
  cases stands <;> rfl

theorem Outcome.verdict?_eq_ok_iff {memory final : Memory} :
    outcome.verdict? memory = some (.ok final) ↔ outcome = .ok .halted ∧ memory = final := by
  rcases outcome with fault | reason
  · simp [verdict?]
  · cases reason <;> simp [verdict?]

theorem Outcome.verdict?_eq_error_iff {memory : Memory} {fault : Fault} :
    outcome.verdict? memory = some (.error fault) ↔ outcome = .error fault := by
  rcases outcome with other | reason
  · simp [verdict?]
  · cases reason <;> simp [verdict?]

namespace Ports

theorem Passes.last_stands {last : Outcome}
    (reached : Reaches ports.Passes place pauses final)
    (outcomes : pauses.map Pause.outcome = items ++ [last]) : last.Stands final.machine.phase := by
  cases reached with
  | start => simp at outcomes
  | move _ passes =>
      rw [List.map_append, List.map_singleton] at outcomes
      obtain ⟨_, same⟩ := List.append_inj' outcomes rfl
      cases same
      exact passes.2.stands

/-- A run answers just if the iterator comes to an end, and what it answers is told by the last
item. -/
theorem run_iff_exhausts {answer : Except Fault Memory} (live : place.machine.isOver = false) :
    (∃ fuel, (place.machine.run ports (fun _ => pure ()) fuel).run place.world =
      (some answer, left)) ↔
    ∃ items last after, ports.Exhausts place (items ++ [last]) ⟨after, left⟩ ∧
      last.verdict? after.memory = some answer := by
  constructor
  · rintro ⟨fuel, ran⟩
    obtain ⟨pauses, after, reached, verdict⟩ := reaches_of_run ran
    have finished := Machine.isOver_of_verdict? verdict
    rcases List.eq_nil_or_concat (pauses.map Pause.outcome) with none | ⟨items, last, outcomes⟩
    · rw [List.map_eq_nil_iff] at none
      subst none
      obtain rfl : after = place.machine := congrArg Place.machine reached.eq_start
      rw [finished] at live
      cases live
    · rw [List.concat_eq_append] at outcomes
      refine ⟨items, last, after, exhausts_iff.mpr ⟨pauses, reached, outcomes, finished⟩, ?_⟩
      rw [← (Passes.last_stands reached outcomes).verdict?_eq, verdict]
  · rintro ⟨items, last, after, exhausts, verdict⟩
    obtain ⟨pauses, reached, outcomes, _⟩ := exhausts_iff.mp exhausts
    rw [← (Passes.last_stands reached outcomes).verdict?_eq] at verdict
    obtain ⟨least, ran⟩ := exists_run reached verdict
    exact ⟨least, ran least (Nat.le_refl _)⟩

end Ports

/-- A run answers a memory just if the iterator ends with a halt, and then in this memory, and it
answers a fault just if the iterator ends with this fault; the ports are used alike. Any row of
resumes and items one by one or many at a time passes through the pauses that it asks for, or
all of them, and what it passes through depends on nothing else: of any two such passages one is
the beginning of the other. -/
theorem Wiring.ways_of_driving_agree (wiring : Wiring World) (program : Program) (world : World) :
    let ports := wiring.recorded.ports
    let start : Place (World × List Call) := ⟨.ofProgram program, world, []⟩
    (∀ memory left,
      (∃ fuel, (start.machine.run ports (fun _ => pure ()) fuel).run start.world =
        (some (.ok memory), left)) ↔
      ∃ items after, ports.Exhausts start (items ++ [.ok .halted]) ⟨after, left⟩ ∧
        after.memory = memory) ∧
    (∀ fault left,
      (∃ fuel, (start.machine.run ports (fun _ => pure ()) fuel).run start.world =
        (some (.error fault), left)) ↔
      ∃ items after, ports.Exhausts start (items ++ [.error fault]) ⟨after, left⟩) ∧
    (∀ drives fuel items after left,
      (Drive.performAll ports fuel start.machine drives).run start.world =
        (some (after, items), left) →
      ∃ pauses, ports.Delivers start (Drive.total drives) items pauses ⟨after, left⟩) ∧
    (∀ drives pauses final, Reaches ports.Passes start pauses final →
      final.Asked (Drive.total drives) pauses →
      ∃ fuel items, (Drive.performAll ports fuel start.machine drives).run start.world =
        (some (final.machine, items), final.world)) ∧
    ∀ pauses more final other, Reaches ports.Passes start pauses final →
      Reaches ports.Passes start more other → pauses <+: more ∨ more <+: pauses := by
  intro ports start
  refine ⟨fun memory left => ?_, fun fault left => ?_, ?_, ?_, ?_⟩
  · rw [Ports.run_iff_exhausts rfl]
    simp only [Outcome.verdict?_eq_ok_iff]
    constructor
    · rintro ⟨items, _, after, exhausts, rfl, memory⟩
      exact ⟨items, after, exhausts, memory⟩
    · rintro ⟨items, after, exhausts, memory⟩
      exact ⟨items, _, after, exhausts, rfl, memory⟩
  · rw [Ports.run_iff_exhausts rfl]
    simp only [Outcome.verdict?_eq_error_iff]
    constructor
    · rintro ⟨items, _, after, exhausts, rfl⟩
      exact ⟨items, after, exhausts⟩
    · rintro ⟨items, after, exhausts⟩
      exact ⟨items, _, after, exhausts, rfl⟩
  · intro drives fuel items after left performed
    exact Drive.delivers_of_performAll performed
  · intro drives pauses final reached asked
    obtain ⟨least, performed⟩ := Drive.exists_performAll reached asked
    exact ⟨least, performed least (Nat.le_refl _)⟩
  · intro pauses more final other reached again
    exact reached.prefix_or_prefix (fun passes other => passes.unique other) again

/-- An echo of one word, driven to its end and beyond by calls of all kinds. -/
theorem Wiring.echo_is_driven_alike :
    let ports := collecting.recorded.ports
    let start : Place ((List Word × List Word) × List Call) :=
      ⟨.ofProgram ⟨[3, 0, 4, 0, 99]⟩, ([7], []), []⟩
    let final : Place ((List Word × List Word) × List Call) :=
      ⟨{ memory := (Memory.ofProgram ⟨[3, 0, 4, 0, 99]⟩).set 0 7, pointer := 5, phase := .halted },
        ([], [7]), [.read (some 7), .write 7]⟩
    ∃ pauses items after,
      ports.Delivers start 10 [.ok .aboutToInput, .ok .afterInput, .ok .aboutToOutput,
        .ok .afterOutput, .ok .halted, .ok .halted] pauses final ∧
      ports.Exhausts start (items ++ [.ok .halted]) ⟨after, final.world⟩ ∧
      after.memory = final.machine.memory := by
  obtain ⟨halts, _, delivers, _⟩ :=
    ways_of_driving_agree collecting ⟨[3, 0, 4, 0, 99]⟩ ([7], [])
  obtain ⟨pauses, delivered⟩ :=
    delivers [.resume, .take 0, .take 2, .next, .take 5, .resume] 2 _ _ _ rfl
  obtain ⟨items, after, ended⟩ := (halts _ _).mp ⟨6, rfl⟩
  exact ⟨pauses, items, after, delivered, ended⟩

end Intcode
