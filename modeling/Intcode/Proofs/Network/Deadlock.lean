import Intcode.Proofs.Machine.Outcomes
import Intcode.Proofs.Network.Answers

namespace Intcode

open Relation

/-! # Deadlock

A machine of a ring never asks for input that is not there, since the round robin leaves it
alone until there is some. So lack of input shows only as a deadlock. The round in which the
last machine able to move gets stuck may have seen progress; then one more round sees none.
-/

namespace Machine

variable {machine after : Machine} {head : Option Word} {transfer : Transfer}

theorem Moves.phase_ne_faulted {fault : Fault} (moves : machine.Moves head after transfer) :
    after.phase ≠ .faulted fault := by
  intro faulted
  cases moves with
  | run _ advanced =>
      have leaves := advance_leaves advanced
      rw [faulted] at leaves
      cases leaves
  | take _ _ received =>
      rw [(receive_value_ok received).1] at faulted
      cases faulted
  | give => cases faulted

end Machine

namespace Ring

variable {last : Nat} {ring next : Ring last} {i : Fin (last + 1)}

/-- The last machine has not halted, and no machine can go on: each of them has halted or waits
for input while its pipe is empty. -/
def Starves (ring : Ring last) : Prop :=
  (ring.machines.get (Fin.last last)).isHalted = false ∧
  ∀ i, (ring.machines.get i).isHalted = true ∨
    ((ring.machines.get i).isAwaitingInput = true ∧ ring.pipes.get i = [])

theorem starves_iff : ring.Starves ↔ ring.isHalted = false ∧ ring.IsStuck := by
  have last_isHalted : ring.isHalted = (ring.machines.get (Fin.last last)).isHalted := rfl
  simp only [Starves, IsStuck, last_isHalted, canResume_eq_false_iff]

def NoneFaulted (ring : Ring last) : Prop :=
  ∀ i fault, (ring.machines.get i).phase ≠ .faulted fault

theorem Picks.noneFaulted (picked : ring.Picks i next) (sound : ring.NoneFaulted) :
    next.NoneFaulted := by
  obtain ⟨machine, transfer, moves, rfl⟩ := picks_iff.mp picked
  intro j fault
  simp only [get_put]
  split
  · exact moves.phase_ne_faulted
  · exact sound j fault

/-- Where a machine is resumed that can move, no fault is about input. -/
theorem lacksInput_of_resumeAt {fuel : Nat} {fault : Fault} (sound : ring.NoneFaulted)
    (can : ring.canResume i = true) (resumed : ring.resumeAt fuel i = some (next, .error fault)) :
    fault.kind.lacksInput = false := by
  cases phase : (ring.machines.get i).phase with
  | running =>
      rw [resumeAt_running phase, Option.map_eq_some_iff] at resumed
      obtain ⟨⟨machine, outcome⟩, advanced, same⟩ := resumed
      cases same
      exact (Machine.advance_leaves advanced).lacksInput
  | reading instruction =>
      have waits : (ring.machines.get i).isAwaitingInput = true := by
        simp only [Machine.isAwaitingInput, phase]
      obtain ⟨word, later, pipe⟩ := List.exists_cons_of_ne_nil (pipe_ne_nil can waits)
      rw [resumeAt_reading phase, pipe] at resumed
      simp only [List.head?_cons, Offer.ofValue?, Option.some.injEq, Prod.mk.injEq] at resumed
      exact Machine.receive_value_error (Prod.ext rfl resumed.2)
  | writing word =>
      rw [resumeAt_writing phase] at resumed
      cases resumed
  | halted =>
      rw [resumeAt_halted phase] at resumed
      cases resumed
  | faulted reason => exact absurd phase (sound i reason)

end Ring

namespace Rotation

variable {last : Nat} {start rotation later : Rotation last}

theorem noneFaulted_of_turns (reached : ReflTransGen Turns start rotation)
    (sound : start.ring.NoneFaulted) : rotation.ring.NoneFaulted := by
  induction reached with
  | refl => exact sound
  | tail _ turns ih =>
      cases turns.steps with
      | moved inside picked => exact picked.noneFaulted ih
      | passed | renewed => exact ih

/-- A ring in which no machine can move lets all turns of the round pass. -/
theorem exists_finished_of_isStuck (stuck : rotation.ring.IsStuck) :
    ∃ ended, ReflTransGen Turns rotation ended ∧ last + 1 ≤ ended.turn ∧
      ended.ring = rotation.ring ∧ ended.progressed = rotation.progressed := by
  induction left : last + 1 - rotation.turn generalizing rotation with
  | zero => exact ⟨rotation, .refl, by omega, rfl, rfl⟩
  | succ left' ih =>
      have inside : rotation.turn < last + 1 := by omega
      have turns : rotation.Turns { rotation with turn := rotation.turn + 1 } :=
        turns_iff_steps.mpr (.passed inside (stuck _))
      have stuckNext : Ring.IsStuck { rotation with turn := rotation.turn + 1 }.ring := stuck
      obtain ⟨ended, reached, finished, same, moved⟩ := ih stuckNext (by dsimp only; omega)
      exact ⟨ended, .head turns reached, finished, same, moved⟩

/-- A ring that starves comes to its deadlock. -/
theorem exists_deadlock_of_starves (starves : rotation.ring.Starves) :
    ∃ final, ReflTransGen Turns rotation final ∧ final.Ends (.error .deadlock) := by
  obtain ⟨moving, stuck⟩ := Ring.starves_iff.mp starves
  obtain ⟨ended, reached, finished, same, progressed⟩ := exists_finished_of_isStuck stuck
  rw [← same] at moving stuck
  cases idle : ended.progressed with
  | false => exact ⟨ended, reached, ends_deadlock_iff.mpr ⟨finished, moving, idle⟩⟩
  | true =>
      have renewed : ended.Turns { ring := ended.ring, rounds := ended.rounds + 1 } :=
        turns_iff_steps.mpr (.renewed finished moving idle)
      have stuckNext : Ring.IsStuck
          ({ ring := ended.ring, rounds := ended.rounds + 1 } : Rotation last).ring := stuck
      obtain ⟨final, reachedFinal, finishedAgain, sameAgain, idleAgain⟩ :=
        exists_finished_of_isStuck stuckNext
      rw [← sameAgain] at moving
      exact ⟨final, (reached.tail renewed).trans reachedFinal,
        ends_deadlock_iff.mpr ⟨finishedAgain, moving, idleAgain⟩⟩

/-- Once no machine can move, at most one more round begins, and nothing moves in it. -/
theorem rounds_of_isStuck (stuck : rotation.ring.IsStuck)
    (reached : ReflTransGen Turns rotation later) :
    later.ring = rotation.ring ∧
      (later.rounds = rotation.rounds ∨
        later.rounds = rotation.rounds + 1 ∧ later.progressed = false) := by
  induction reached with
  | refl => exact ⟨rfl, .inl rfl⟩
  | tail _ turns ih =>
      obtain ⟨same, rounds⟩ := ih
      cases turns.steps with
      | moved inside picked =>
          have can := picked.1
          rw [same, stuck] at can
          contradiction
      | passed => exact ⟨same, rounds⟩
      | renewed finished moving progressed =>
          refine ⟨same, .inr ⟨?_, rfl⟩⟩
          rcases rounds with first | ⟨_, idle⟩
          · rw [first]
          · rw [idle] at progressed
            contradiction

theorem starves_of_deadlock (passed : rotation.PassedCannotMove)
    (ends : rotation.Ends (.error .deadlock)) : rotation.ring.Starves := by
  obtain ⟨_, moving, _⟩ := ends_deadlock_iff.mp ends
  exact Ring.starves_iff.mpr ⟨moving, isStuck_of_deadlock passed ends⟩

/-- A ring of machines that began without a fault never fails for want of input. -/
theorem lacksInput_of_failed {index : Nat} {fault : Fault} (sound : rotation.ring.NoneFaulted)
    (ends : rotation.Ends (.error (.failed index fault))) : fault.kind.lacksInput = false := by
  obtain ⟨_, _, _, can, resumed⟩ := ends.failed
  exact Ring.lacksInput_of_resumeAt sound can resumed

end Rotation

namespace Ring

open Rotation

/-- Lack of input never makes a machine of a ring fail. The ring answers with a deadlock exactly
when it comes to starve, and then at most one more round begins. -/
theorem lack_of_input_is_deadlock (report : Event → Id Unit) (program : Program) (phase : Word)
    (rest : List Word) :
    (∀ index fault, Answers report program (phase :: rest) (.error (.failed index fault)) →
      fault.kind ≠ .inputExhausted ∧ fault.kind ≠ .inputNotConnected) ∧
    (Answers report program (phase :: rest) (.error .deadlock) ↔
      ∃ rotation, ReflTransGen Turns (firstRound program phase rest) rotation ∧
        rotation.ring.Starves) ∧
    (∀ rotation, ReflTransGen Turns (firstRound program phase rest) rotation →
      rotation.ring.Starves → ∀ later, ReflTransGen Turns rotation later →
        later.rounds ≤ rotation.rounds + 1) := by
  refine ⟨?_, ?_, ?_⟩
  · intro index fault answers
    obtain ⟨final, reached, ends⟩ := answers_iff.mp answers
    have fresh : (firstRound program phase rest).ring.NoneFaulted := by
      intro i reason faulted
      have begun : (firstRound program phase rest).ring.machines.get i =
          Machine.ofProgram program := Vector.getElem_replicate i.isLt
      rw [begun] at faulted
      cases faulted
    have other := lacksInput_of_failed (noneFaulted_of_turns reached fresh) ends
    constructor
    · intro exhausted
      rw [exhausted] at other
      contradiction
    · intro disconnected
      rw [disconnected] at other
      contradiction
  · rw [answers_iff]
    constructor
    · rintro ⟨final, reached, ends⟩
      have passed := passedCannotMove_of_turns reached
        (fun _ i earlier => absurd earlier (Nat.not_lt_zero _))
      exact ⟨final, reached, starves_of_deadlock passed ends⟩
    · rintro ⟨rotation, reached, starves⟩
      obtain ⟨final, reachedFinal, ends⟩ := exists_deadlock_of_starves starves
      exact ⟨final, reached.trans reachedFinal, ends⟩
  · intro rotation _ starves later reached
    obtain ⟨_, rounds⟩ := rounds_of_isStuck (starves_iff.mp starves).2 reached
    omega

theorem starved_pair_deadlocks :
    (Answers (fun _ => pure ()) ⟨[42]⟩ [1, 2]
        (.error (.failed 0 { kind := .invalidOpcode 42, address := 0 })) ∧
      FaultKind.invalidOpcode 42 ≠ .inputExhausted) ∧
    Answers (fun _ => pure ()) ⟨[3, 0, 3, 0, 3, 0, 99]⟩ [1, 2] (.error .deadlock) ∧
    ∃ rotation, ReflTransGen Turns (firstRound ⟨[3, 0, 3, 0, 3, 0, 99]⟩ 1 [2]) rotation ∧
      rotation.ring.Starves ∧
      ∀ later, ReflTransGen Turns rotation later → later.rounds ≤ rotation.rounds + 1 := by
  have failed : Answers (fun _ => pure ()) ⟨[42]⟩ [1, 2]
      (.error (.failed 0 { kind := .invalidOpcode 42, address := 0 })) := ⟨5, by decide +kernel⟩
  have deadlocked : Answers (fun _ => pure ()) ⟨[3, 0, 3, 0, 3, 0, 99]⟩ [1, 2]
      (.error .deadlock) := ⟨30, by decide +kernel⟩
  obtain ⟨_, deadlock, soon⟩ :=
    lack_of_input_is_deadlock (fun _ => pure ()) ⟨[3, 0, 3, 0, 3, 0, 99]⟩ 1 [2]
  obtain ⟨rotation, reached, starves⟩ := deadlock.mp deadlocked
  exact ⟨⟨failed, ((lack_of_input_is_deadlock _ ⟨[42]⟩ 1 [2]).1 0 _ failed).1⟩, deadlocked,
    rotation, reached, starves, soon rotation reached starves⟩

end Ring

end Intcode
