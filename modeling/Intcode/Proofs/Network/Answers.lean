import Intcode.Proofs.Network.Confluence

namespace Intcode

open Relation

namespace Rotation

variable {last : Nat} {before after rotation final : Rotation last} {signal : Signal}

theorem step?_mono {fuel more : Nat} {answer : List Event × (Rotation last ⊕ Signal)}
    (stepped : rotation.step? fuel = some answer) (enough : fuel ≤ more) :
    rotation.step? more = some answer := by
  by_cases inside : rotation.turn < last + 1
  · cases can : rotation.ring.canResume ⟨rotation.turn, inside⟩ with
    | false =>
        simp only [step?, inside, can, ↓reduceDIte, Bool.false_eq_true, if_false] at stepped ⊢
        exact stepped
    | true =>
        simp only [step?, inside, can, ↓reduceDIte, if_true, Option.map_eq_some_iff] at stepped ⊢
        obtain ⟨resumed, found, same⟩ := stepped
        exact ⟨resumed, Ring.resumeAt_mono found enough, same⟩
  · simp only [step?, inside, ↓reduceDIte] at stepped ⊢
    exact stepped

/-- Whatever a step of the round robin can do, it does with enough fuel. -/
theorem Steps.exists_step? {next : Rotation last ⊕ Signal} (steps : rotation.Steps next) :
    ∃ fuel events, rotation.step? fuel = some (events, next) := by
  cases steps with
  | @moved inside ring picked =>
      obtain ⟨can, fuel, reason, resumed⟩ := picked
      refine ⟨fuel, Event.ofOutcome (ring.machines.get ⟨rotation.turn, inside⟩) (.ok reason), ?_⟩
      simp only [step?, inside, can, resumed, ↓reduceDIte, if_true, Option.map_some]
      rfl
  | @failed inside fuel ring fault can resumed =>
      refine ⟨fuel, Event.ofOutcome (ring.machines.get ⟨rotation.turn, inside⟩) (.error fault), ?_⟩
      simp only [step?, inside, can, resumed, ↓reduceDIte, if_true, Option.map_some]
      rfl
  | passed inside cannot =>
      refine ⟨0, [], ?_⟩
      simp only [step?, inside, cannot, ↓reduceDIte, Bool.false_eq_true, if_false]
  | answered finished halted =>
      refine ⟨0, rotation.endRound.1, ?_⟩
      simp only [step?, Nat.not_lt.mpr finished, ↓reduceDIte, endRound, halted, if_true]
  | renewed finished moving progressed =>
      refine ⟨0, rotation.endRound.1, ?_⟩
      simp only [step?, Nat.not_lt.mpr finished, ↓reduceDIte, endRound, moving, progressed,
        Bool.false_eq_true, if_false, if_true]
  | deadlocked finished moving idle =>
      refine ⟨0, rotation.endRound.1, ?_⟩
      simp only [step?, Nat.not_lt.mpr finished, ↓reduceDIte, endRound, moving, idle,
        Bool.false_eq_true, if_false]

theorem turns_iff_steps : before.Turns after ↔ before.Steps (.inl after) :=
  ⟨Turns.steps, Steps.exists_step?⟩

theorem ends_iff_steps : rotation.Ends signal ↔ rotation.Steps (.inr signal) :=
  ⟨Ends.steps, Steps.exists_step?⟩

/-- The round is over and the last machine has halted: here the round robin stops. -/
def IsDone (rotation : Rotation last) : Prop :=
  last + 1 ≤ rotation.turn ∧ rotation.ring.isHalted = true

/-- The round robin ends with a failed resume, with what pipe zero holds when it is done, or
with a round in which nothing moved. -/
theorem Ends.cases (ends : rotation.Ends signal) :
    (∃ inside fuel ring fault,
      rotation.ring.canResume ⟨rotation.turn, inside⟩ = true ∧
      rotation.ring.resumeAt fuel ⟨rotation.turn, inside⟩ = some (ring, .error fault) ∧
      signal = .error (.failed rotation.turn fault)) ∨
    (rotation.IsDone ∧ ∃ word, rotation.ring.oldest? = some word ∧ signal = .ok word) ∨
    (rotation.IsDone ∧ rotation.ring.oldest? = none ∧ signal = .error (.noOutput last)) ∨
    (last + 1 ≤ rotation.turn ∧ rotation.ring.isHalted = false ∧ rotation.progressed = false ∧
      signal = .error .deadlock) := by
  cases ends.steps with
  | failed inside can resumed => exact .inl ⟨inside, _, _, _, can, resumed, rfl⟩
  | answered finished halted =>
      cases oldest : rotation.ring.oldest? with
      | some word => exact .inr (.inl ⟨⟨finished, halted⟩, word, rfl, rfl⟩)
      | none => exact .inr (.inr (.inl ⟨⟨finished, halted⟩, rfl, rfl⟩))
  | deadlocked finished moving idle => exact .inr (.inr (.inr ⟨finished, moving, idle, rfl⟩))

theorem IsDone.ends (done : rotation.IsDone) :
    rotation.Ends (rotation.ring.oldest?.elim (.error (.noOutput last)) .ok) :=
  ends_iff_steps.mpr (.answered done.1 done.2)

theorem Ends.failed {index : Nat} {fault : Fault}
    (ends : rotation.Ends (.error (.failed index fault))) :
    ∃ inside fuel ring, rotation.ring.canResume ⟨rotation.turn, inside⟩ = true ∧
      rotation.ring.resumeAt fuel ⟨rotation.turn, inside⟩ = some (ring, .error fault) := by
  obtain ⟨inside, fuel, ring, _, can, resumed, answer⟩ | ⟨_, _, _, answer⟩ | ⟨_, _, answer⟩ |
    ⟨_, _, _, answer⟩ := ends.cases
  · cases answer
    exact ⟨inside, fuel, ring, can, resumed⟩
  all_goals cases answer

theorem ends_ok_iff {word : Word} :
    rotation.Ends (.ok word) ↔ rotation.IsDone ∧ rotation.ring.oldest? = some word := by
  constructor
  · intro ends
    obtain ⟨_, _, _, _, _, _, answer⟩ | ⟨done, _, oldest, answer⟩ | ⟨_, _, answer⟩ |
      ⟨_, _, _, answer⟩ := ends.cases
    case inr.inl =>
      cases answer
      exact ⟨done, oldest⟩
    all_goals cases answer
  · rintro ⟨done, oldest⟩
    have ends := done.ends
    rwa [oldest] at ends

theorem ends_noOutput_iff {index : Nat} :
    rotation.Ends (.error (.noOutput index)) ↔
      index = last ∧ rotation.IsDone ∧ rotation.ring.oldest? = none := by
  constructor
  · intro ends
    obtain ⟨_, _, _, _, _, _, answer⟩ | ⟨_, _, _, answer⟩ | ⟨done, empty, answer⟩ |
      ⟨_, _, _, answer⟩ := ends.cases
    case inr.inr.inl =>
      cases answer
      exact ⟨rfl, done, empty⟩
    all_goals cases answer
  · rintro ⟨rfl, done, oldest⟩
    have ends := done.ends
    rwa [oldest] at ends

theorem ends_deadlock_iff :
    rotation.Ends (.error .deadlock) ↔
      last + 1 ≤ rotation.turn ∧ rotation.ring.isHalted = false ∧ rotation.progressed = false := by
  constructor
  · intro ends
    obtain ⟨_, _, _, _, _, _, answer⟩ | ⟨_, _, _, answer⟩ | ⟨_, _, answer⟩ |
      ⟨finished, moving, idle, _⟩ := ends.cases
    case inr.inr.inr => exact ⟨finished, moving, idle⟩
    all_goals cases answer
  · rintro ⟨finished, moving, idle⟩
    exact ends_iff_steps.mpr (.deadlocked finished moving idle)

theorem run_mono {report : Event → Id Unit} {fuel more : Nat}
    (answered : Id.run (Rotation.run report fuel rotation) = some signal) (enough : fuel ≤ more) :
    Id.run (Rotation.run report more rotation) = some signal := by
  induction fuel generalizing rotation more with
  | zero => contradiction
  | succ fuel ih =>
      obtain ⟨rest, rfl⟩ : ∃ rest, more = rest + 1 := ⟨more - 1, by omega⟩
      cases stepped : rotation.step? fuel with
      | none =>
          simp only [Rotation.run, stepped] at answered
          contradiction
      | some answer =>
          obtain ⟨events, next⟩ := answer
          simp only [Rotation.run, stepped] at answered
          simp only [Rotation.run, step?_mono stepped (Nat.le_of_succ_le_succ enough)]
          cases next with
          | inl next => exact ih answered (Nat.le_of_succ_le_succ enough)
          | inr answer => exact answered

theorem exists_run_of_ends {report : Event → Id Unit}
    (reached : ReflTransGen Turns rotation final) (ends : final.Ends signal) :
    ∃ fuel, Id.run (Rotation.run report fuel rotation) = some signal := by
  induction reached using ReflTransGen.head_induction_on with
  | refl =>
      obtain ⟨fuel, events, stepped⟩ := ends
      refine ⟨fuel + 1, ?_⟩
      simp only [Rotation.run, stepped]
      rfl
  | head turns _ ih =>
      obtain ⟨fuel, events, stepped⟩ := turns
      obtain ⟨more, answered⟩ := ih
      refine ⟨max fuel more + 1, ?_⟩
      simp only [Rotation.run, step?_mono stepped (Nat.le_max_left fuel more)]
      exact run_mono answered (Nat.le_max_right fuel more)

end Rotation

namespace Ring

/-- The first round of a ring with the given phases, before any machine has moved. -/
def firstRound (program : Program) (phase : Word) (rest : List Word) : Rotation rest.length :=
  { ring := ofPhases program phase rest }

/-- A ring answers with a signal if with enough fuel its run gives that signal. -/
def Answers (report : Event → Id Unit) (program : Program) (phases : List Word)
    (signal : Signal) : Prop :=
  ∃ fuel, Id.run (run report fuel program phases) = some signal

variable {report : Event → Id Unit} {program : Program} {phase : Word} {rest : List Word}
  {signal other : Signal}

theorem Answers.unique (answers : Answers report program (phase :: rest) signal)
    (again : Answers report program (phase :: rest) other) : signal = other := by
  obtain ⟨fuel, answered⟩ := answers
  obtain ⟨more, answeredAgain⟩ := again
  have first : Id.run (run report (max fuel more) program (phase :: rest)) = some signal :=
    Rotation.run_mono answered (Nat.le_max_left fuel more)
  have second : Id.run (run report (max fuel more) program (phase :: rest)) = some other :=
    Rotation.run_mono answeredAgain (Nat.le_max_right fuel more)
  exact Option.some.inj (first.symm.trans second)

theorem answers_iff :
    Answers report program (phase :: rest) signal ↔
      ∃ final, ReflTransGen Rotation.Turns (firstRound program phase rest) final ∧
        final.Ends signal := by
  constructor
  · rintro ⟨fuel, answered⟩
    exact Rotation.ends_of_run answered
  · rintro ⟨final, reached, ends⟩
    exact Rotation.exists_run_of_ends reached ends

end Ring

end Intcode
