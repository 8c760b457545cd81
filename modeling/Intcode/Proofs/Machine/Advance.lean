import Intcode.Machine
import Intcode.Proofs.Runs

namespace Intcode.Machine

theorem advance_mono {fuel more : Nat} {machine : Machine} {answer : Machine × Outcome}
    (answered : machine.advance fuel = some answer) (enough : fuel ≤ more) :
    machine.advance more = some answer := by
  induction fuel generalizing machine more with
  | zero => contradiction
  | succ fuel ih =>
      obtain ⟨rest, rfl⟩ : ∃ rest, more = rest + 1 := ⟨more - 1, by omega⟩
      cases stepped : machine.step with
      | mk next outcome =>
          cases outcome with
          | some outcome => simpa only [advance, stepped] using answered
          | none =>
              simp only [advance, stepped] at answered ⊢
              exact ih answered (by omega)

theorem advance_unique {first second : Nat} {machine : Machine} {left right : Machine × Outcome}
    (answeredLeft : machine.advance first = some left)
    (answeredRight : machine.advance second = some right) : left = right := by
  have atLeft := advance_mono answeredLeft (Nat.le_max_left first second)
  have atRight := advance_mono answeredRight (Nat.le_max_right first second)
  exact Option.some.inj (atLeft.symm.trans atRight)

/-- The outcome of an advance is that of its last step. -/
theorem exists_last_step {fuel : Nat} {machine after : Machine} {outcome : Outcome}
    (advanced : machine.advance fuel = some (after, outcome)) :
    ∃ last : Machine, last.step = (after, some outcome) := by
  induction fuel generalizing machine with
  | zero => cases advanced
  | succ fuel ih =>
      rw [advance] at advanced
      split at advanced <;> rename_i stepped
      · cases advanced
        exact ⟨machine, stepped⟩
      · exact ih advanced

/-- With enough fuel a machine advances exactly as its steps settle. -/
theorem settles_iff_advance {machine after : Machine} {outcome : Outcome} :
    Settles Machine.step machine outcome after ↔
      ∃ fuel, machine.advance fuel = some (after, outcome) := by
  constructor
  · intro settled
    induction settled with
    | report stepped => exact ⟨1, by rw [advance, stepped]⟩
    | silent stepped settled ih =>
        obtain ⟨fuel, advanced⟩ := ih
        exact ⟨fuel + 1, by rw [advance, stepped]; exact advanced⟩
  · rintro ⟨fuel, advanced⟩
    induction fuel generalizing machine with
    | zero => cases advanced
    | succ fuel ih =>
        rw [advance] at advanced
        split at advanced <;> rename_i stepped
        · cases advanced
          exact .report stepped
        · exact .silent stepped (ih advanced)

end Intcode.Machine
