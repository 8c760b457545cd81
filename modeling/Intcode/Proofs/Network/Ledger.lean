import Intcode.Proofs.Network.Answers
import Intcode.Proofs.Wiring

namespace Intcode

open Relation

structure Ledger where
  /-- The words a machine has taken in, the first one first. -/
  taken : List Word := []
  /-- The words it has handed out, the first one first. -/
  written : List Word := []

namespace Ledger

def handOut (ledger : Ledger) (word : Word) : Ledger :=
  { ledger with written := ledger.written ++ [word] }

/-- Enters a call. Nothing is taken when there is nothing to take. -/
def enter (ledger : Ledger) : Call → Ledger
  | .read (some word) => { ledger with taken := ledger.taken ++ [word] }
  | .read none => ledger
  | .write word => ledger.handOut word

end Ledger

/-- Enters what a resume did to the pipes, where `head` is the oldest word of the own one. -/
def Transfer.record (head : Option Word) (ledger : Ledger) : Transfer → Ledger
  | .nothing => ledger
  | .take => { ledger with taken := ledger.taken ++ head.toList }
  | .give word => ledger.handOut word

namespace Transfer

variable {head : Option Word} {ledger : Ledger} {word : Word}

theorem record_nothing : nothing.record head ledger = ledger := rfl

theorem written_record_take : (take.record head ledger).written = ledger.written := rfl

theorem taken_record_give : ((give word).record head ledger).taken = ledger.taken := rfl

end Transfer

namespace Ring

variable {last : Nat}

/-- The pipes around machine `i` as a wiring, at which the ports of the machine are what they are
in the ring. -/
def wiring (i : Fin (last + 1)) :
    { wiring : Wiring (Vector (List Word) (last + 1)) // wiring.ports = ports i } :=
  ⟨{ source := some fun pipes => ((pipes.get i).head?, put pipes i (pipes.get i).tail)
     sink := some fun word pipes => put pipes (after i) (pipes.get (after i) ++ [word]) }, rfl⟩

/-- The ledger of machine `i` after a resume of it. -/
def ledgerAfter (ring : Ring last) (fuel : Nat) (i : Fin (last + 1)) (ledger : Ledger) : Ledger :=
  let (_, _, calls) :=
    ((ring.machines.get i).resume (wiring i).val.recorded.ports fuel).run (ring.pipes, [])
  calls.foldl Ledger.enter ledger

theorem ledgerAfter_of_moves {ring : Ring last} {fuel : Nat} {i : Fin (last + 1)} {ledger : Ledger}
    {machine : Machine} {transfer : Transfer}
    (moves : (ring.machines.get i).Moves (ring.pipes.get i).head? machine transfer) :
    ring.ledgerAfter fuel i ledger = transfer.record (ring.pipes.get i).head? ledger := by
  cases moves with
  | run phase =>
      rw [ledgerAfter, Wiring.resume_running phase]
      rfl
  | take phase oldest =>
      rw [ledgerAfter, Wiring.resume_fed phase rfl]
      simp only [oldest]
      rfl
  | give phase =>
      rw [ledgerAfter, Wiring.resume_wrote phase rfl]
      rfl

end Ring

namespace Rotation

variable {last : Nat} {start rotation : Rotation last} {ledgers : Vector Ledger (last + 1)}

/-- The ledgers after a step of the round robin: only a machine that is resumed has something
to enter. -/
def ledgersAfter (rotation : Rotation last) (fuel : Nat) (ledgers : Vector Ledger (last + 1)) :
    Vector Ledger (last + 1) :=
  if inside : rotation.turn < last + 1 then
    let i : Fin (last + 1) := ⟨rotation.turn, inside⟩
    if rotation.ring.canResume i then
      Ring.put ledgers i (rotation.ring.ledgerAfter fuel i (ledgers.get i))
    else ledgers
  else ledgers

/-- The ledgers that are kept from the start of a round robin up to some point of it. -/
inductive Keeps (start : Rotation last) : Vector Ledger (last + 1) → Rotation last → Prop
  | start : Keeps start (Vector.replicate (last + 1) {}) start
  | step {fuel : Nat} {events : List Event} {before after : Rotation last}
      {ledgers : Vector Ledger (last + 1)} (kept : Keeps start ledgers before)
      (stepped : before.step? fuel = some (events, .inl after)) :
      Keeps start (before.ledgersAfter fuel ledgers) after

theorem ledgersAfter_moved {fuel : Nat} {machine : Machine} {transfer : Transfer}
    (inside : rotation.turn < last + 1)
    (can : rotation.ring.canResume ⟨rotation.turn, inside⟩ = true)
    (moves : (rotation.ring.machines.get ⟨rotation.turn, inside⟩).Moves
      (rotation.ring.pipes.get ⟨rotation.turn, inside⟩).head? machine transfer) :
    rotation.ledgersAfter fuel ledgers =
      Ring.put ledgers ⟨rotation.turn, inside⟩
        (transfer.record (rotation.ring.pipes.get ⟨rotation.turn, inside⟩).head?
          (ledgers.get ⟨rotation.turn, inside⟩)) := by
  simp only [ledgersAfter, inside, can, ↓reduceDIte, if_true, Ring.ledgerAfter_of_moves moves]

theorem ledgersAfter_passed {fuel : Nat} (inside : rotation.turn < last + 1)
    (cannot : rotation.ring.canResume ⟨rotation.turn, inside⟩ = false) :
    rotation.ledgersAfter fuel ledgers = ledgers := by
  simp only [ledgersAfter, inside, cannot, ↓reduceDIte, Bool.false_eq_true, if_false]

theorem ledgersAfter_finished {fuel : Nat} (finished : last + 1 ≤ rotation.turn) :
    rotation.ledgersAfter fuel ledgers = ledgers := by
  simp only [ledgersAfter, Nat.not_lt.mpr finished, ↓reduceDIte]

theorem Keeps.moved {i : Fin (last + 1)} {machine : Machine} {transfer : Transfer}
    (kept : start.Keeps ledgers rotation) (turn : rotation.turn = i.val)
    (moves : (rotation.ring.machines.get i).Moves (rotation.ring.pipes.get i).head? machine
      transfer) :
    start.Keeps
      (Ring.put ledgers i (transfer.record (rotation.ring.pipes.get i).head? (ledgers.get i)))
      { rotation with
        ring.machines := Ring.put rotation.ring.machines i machine
        ring.pipes := Ring.transferAt i (Ring.after i) transfer rotation.ring.pipes
        progressed := true } := by
  have inside : rotation.turn < last + 1 := turn ▸ i.isLt
  obtain rfl : i = ⟨rotation.turn, inside⟩ := Fin.ext turn.symm
  have picked := Ring.picks_iff.mpr ⟨machine, transfer, moves, rfl⟩
  obtain ⟨fuel, events, stepped⟩ := (Steps.moved inside picked).exists_step?
  have keptOn := kept.step stepped
  rwa [ledgersAfter_moved inside picked.1 moves] at keptOn

theorem Keeps.passed {i : Fin (last + 1)} (kept : start.Keeps ledgers rotation)
    (turn : rotation.turn = i.val) (cannot : rotation.ring.canResume i = false) :
    start.Keeps ledgers { rotation with turn := rotation.turn + 1 } := by
  have inside : rotation.turn < last + 1 := turn ▸ i.isLt
  obtain rfl : i = ⟨rotation.turn, inside⟩ := Fin.ext turn.symm
  obtain ⟨fuel, events, stepped⟩ := (Steps.passed inside cannot).exists_step?
  have keptOn := kept.step stepped
  rwa [ledgersAfter_passed inside cannot] at keptOn

theorem Keeps.reached (kept : start.Keeps ledgers rotation) :
    ReflTransGen Turns start rotation := by
  induction kept with
  | start => exact .refl
  | step _ stepped ih => exact ih.tail ⟨_, _, stepped⟩

theorem exists_keeps (reached : ReflTransGen Turns start rotation) :
    ∃ ledgers, start.Keeps ledgers rotation := by
  induction reached with
  | refl => exact ⟨_, .start⟩
  | tail _ turns ih =>
      obtain ⟨ledgers, kept⟩ := ih
      obtain ⟨fuel, events, stepped⟩ := turns
      exact ⟨_, kept.step stepped⟩

end Rotation

end Intcode
