import Intcode.Proofs.Network.Schedule

namespace Intcode.Rotation

open Relation

variable {last : Nat} {before after rotation : Rotation last} {signal : Signal}

/-- One step of the round robin: a machine moves, lets its turn pass, or a round begins. -/
def Turns (before after : Rotation last) : Prop :=
  ∃ fuel events, before.step? fuel = some (events, .inl after)

def Ends (rotation : Rotation last) (signal : Signal) : Prop :=
  ∃ fuel events, rotation.step? fuel = some (events, .inr signal)

/-- All that a step of the round robin can do. -/
inductive Steps (rotation : Rotation last) : Rotation last ⊕ Signal → Prop
  | moved (inside : rotation.turn < last + 1) {ring : Ring last}
      (picked : rotation.ring.Picks ⟨rotation.turn, inside⟩ ring) :
      Steps rotation (.inl { rotation with ring, progressed := true })
  | failed (inside : rotation.turn < last + 1) {fuel : Nat} {ring : Ring last} {fault : Fault}
      (can : rotation.ring.canResume ⟨rotation.turn, inside⟩ = true)
      (resumed : rotation.ring.resumeAt fuel ⟨rotation.turn, inside⟩ = some (ring, .error fault)) :
      Steps rotation (.inr (.error (.failed rotation.turn fault)))
  | passed (inside : rotation.turn < last + 1)
      (cannot : rotation.ring.canResume ⟨rotation.turn, inside⟩ = false) :
      Steps rotation (.inl { rotation with turn := rotation.turn + 1 })
  | answered (finished : last + 1 ≤ rotation.turn) (halted : rotation.ring.isHalted = true) :
      Steps rotation (.inr (rotation.ring.oldest?.elim (.error (.noOutput last)) .ok))
  | renewed (finished : last + 1 ≤ rotation.turn) (moving : rotation.ring.isHalted = false)
      (progressed : rotation.progressed = true) :
      Steps rotation (.inl { ring := rotation.ring, rounds := rotation.rounds + 1 })
  | deadlocked (finished : last + 1 ≤ rotation.turn) (moving : rotation.ring.isHalted = false)
      (idle : rotation.progressed = false) :
      Steps rotation (.inr (.error .deadlock))

theorem steps_of_step? {fuel : Nat} {events : List Event} {next : Rotation last ⊕ Signal}
    (stepped : rotation.step? fuel = some (events, next)) : rotation.Steps next := by
  by_cases inside : rotation.turn < last + 1
  · cases can : rotation.ring.canResume ⟨rotation.turn, inside⟩ with
    | false =>
        simp only [step?, inside, can, ↓reduceDIte, Bool.false_eq_true, if_false,
          Option.some.injEq, Prod.mk.injEq] at stepped
        exact stepped.2 ▸ .passed inside can
    | true =>
        simp only [step?, inside, can, ↓reduceDIte, if_true, Option.map_eq_some_iff] at stepped
        obtain ⟨⟨ring, outcome⟩, resumed, same⟩ := stepped
        cases outcome with
        | ok reason =>
            simp only [Prod.mk.injEq] at same
            exact same.2 ▸ .moved inside ⟨can, fuel, reason, resumed⟩
        | error fault =>
            simp only [Prod.mk.injEq] at same
            exact same.2 ▸ .failed inside can resumed
  · have finished : last + 1 ≤ rotation.turn := by omega
    cases halted : rotation.ring.isHalted with
    | true =>
        simp only [step?, inside, ↓reduceDIte, endRound, halted, if_true, Option.some.injEq,
          Prod.mk.injEq] at stepped
        exact stepped.2 ▸ .answered finished halted
    | false =>
        cases progressed : rotation.progressed with
        | true =>
            simp only [step?, inside, ↓reduceDIte, endRound, halted, progressed, if_true,
              Bool.false_eq_true, if_false, Option.some.injEq, Prod.mk.injEq] at stepped
            exact stepped.2 ▸ .renewed finished halted progressed
        | false =>
            simp only [step?, inside, ↓reduceDIte, endRound, halted, progressed,
              Bool.false_eq_true, if_false, Option.some.injEq, Prod.mk.injEq] at stepped
            exact stepped.2 ▸ .deadlocked finished halted progressed

theorem Turns.steps (turns : before.Turns after) : before.Steps (.inl after) := by
  obtain ⟨_, _, stepped⟩ := turns
  exact steps_of_step? stepped

theorem Ends.steps (ends : rotation.Ends signal) : rotation.Steps (.inr signal) := by
  obtain ⟨_, _, stepped⟩ := ends
  exact steps_of_step? stepped

/-- An answer of the round robin is the answer of the last of its steps. -/
theorem ends_of_run {report : Event → Id Unit} {fuel : Nat}
    (answered : Id.run (Rotation.run report fuel rotation) = some signal) :
    ∃ final, ReflTransGen Turns rotation final ∧ final.Ends signal := by
  induction fuel generalizing rotation with
  | zero => contradiction
  | succ fuel ih =>
      cases stepped : rotation.step? fuel with
      | none =>
          simp only [Rotation.run, stepped] at answered
          contradiction
      | some answer =>
          obtain ⟨events, next⟩ := answer
          simp only [Rotation.run, stepped] at answered
          cases next with
          | inl next =>
              obtain ⟨final, reached, ends⟩ := ih answered
              exact ⟨final, .head ⟨fuel, events, stepped⟩ reached, ends⟩
          | inr answer =>
              cases answered
              exact ⟨rotation, .refl, fuel, events, stepped⟩

/-- As long as no machine has moved in the round, those whose turn is over cannot. -/
def PassedCannotMove (rotation : Rotation last) : Prop :=
  rotation.progressed = false →
    ∀ i : Fin (last + 1), i.val < rotation.turn → rotation.ring.canResume i = false

theorem Turns.passedCannotMove (turns : before.Turns after) (passed : before.PassedCannotMove) :
    after.PassedCannotMove := by
  cases turns.steps with
  | moved inside picked =>
      intro idle
      contradiction
  | passed inside cannot =>
      intro idle i earlier
      by_cases now : i.val = before.turn
      · have same : i = ⟨before.turn, inside⟩ := Fin.ext now
        rw [same]
        exact cannot
      · exact passed idle i (by simp only at earlier; omega)
  | renewed finished moving progressed =>
      intro _ i earlier
      exact absurd earlier (Nat.not_lt_zero _)

theorem follows_of_turns {start : Rotation last} (reached : ReflTransGen Turns start rotation) :
    ∃ picks, start.ring.Follows picks rotation.ring := by
  induction reached with
  | refl => exact ⟨[], .done _⟩
  | tail _ turns ih =>
      obtain ⟨picks, followed⟩ := ih
      cases turns.steps with
      | moved inside picked => exact ⟨picks ++ [⟨_, inside⟩], followed.append (.pick picked (.done _))⟩
      | passed => exact ⟨picks, followed⟩
      | renewed => exact ⟨picks, followed⟩

theorem passedCannotMove_of_turns {start : Rotation last}
    (reached : ReflTransGen Turns start rotation) (passed : start.PassedCannotMove) :
    rotation.PassedCannotMove := by
  induction reached with
  | refl => exact passed
  | tail _ turns ih => exact turns.passedCannotMove ih

theorem isStuck_of_deadlock (passed : rotation.PassedCannotMove)
    (ends : rotation.Ends (.error .deadlock)) : rotation.ring.IsStuck := by
  generalize answer : (.error .deadlock : Signal) = signal at ends
  cases ends.steps with
  | failed => cases answer
  | answered finished halted => cases oldest : rotation.ring.oldest? <;> simp [oldest] at answer
  | deadlocked finished moving idle =>
      intro i
      exact passed idle i (by omega)

end Intcode.Rotation
