import Intcode.Network.Rotation
import Intcode.Proofs.Machine.Advance
import Mathlib.Algebra.Group.Fin.Basic
import Mathlib.Data.List.Count
import Mathlib.Data.List.Perm.Basic
import Mathlib.Logic.Relation

namespace Intcode

/-! # Schedules of a ring

A schedule is a row of picks: each pick resumes one machine that can move. Two
machines only share a pipe as its reader and its writer, and reading at the front
commutes with writing at the back. Hence once one schedule ends with no machine
able to move, every schedule gets there.
-/

/-- What a resume does to the pipes of a ring. -/
inductive Transfer where
  | nothing
  /-- The oldest word leaves the machine's own pipe. -/
  | take
  /-- A word goes to the pipe of the next machine. -/
  | give (word : Word)

/-- The machine goes on from where it is, without a fault and without waiting. All it
sees of the pipes is the oldest word of its own, if there is one. -/
inductive Machine.Moves (machine : Machine) (head : Option Word) : Machine → Transfer → Prop
  | run {fuel : Nat} {after : Machine} {reason : Suspension}
      (phase : machine.phase = .running)
      (advanced : machine.advance fuel = some (after, .ok reason)) :
      Moves machine head after .nothing
  | take {instruction : Instruction} {word : Word} {after : Machine} {reason : Suspension}
      (phase : machine.phase = .reading instruction) (oldest : head = some word)
      (received : machine.receive instruction (.value word) = (after, .ok reason)) :
      Moves machine head after .take
  | give {word : Word} (phase : machine.phase = .writing word) :
      Moves machine head { machine with phase := .running } (.give word)

namespace Machine.Moves

variable {machine after : Machine} {head : Option Word} {transfer : Transfer}

theorem unique {other : Machine} {otherTransfer : Transfer}
    (moves : machine.Moves head after transfer) (otherMoves : machine.Moves head other otherTransfer) :
    after = other ∧ transfer = otherTransfer := by
  cases moves with
  | run phase advanced =>
      cases otherMoves with
      | run _ otherAdvanced =>
          have same := Machine.advance_unique advanced otherAdvanced
          exact ⟨congrArg Prod.fst same, rfl⟩
      | take otherPhase => simp [phase] at otherPhase
      | give otherPhase => simp [phase] at otherPhase
  | take phase oldest received =>
      cases otherMoves with
      | run otherPhase => simp [phase] at otherPhase
      | take otherPhase otherOldest otherReceived =>
          cases phase.symm.trans otherPhase
          cases oldest.symm.trans otherOldest
          exact ⟨congrArg Prod.fst (received.symm.trans otherReceived), rfl⟩
      | give otherPhase => simp [phase] at otherPhase
  | give phase =>
      cases otherMoves with
      | run otherPhase => simp [phase] at otherPhase
      | take otherPhase => simp [phase] at otherPhase
      | give otherPhase =>
          cases phase.symm.trans otherPhase
          exact ⟨rfl, rfl⟩

/-- Only a machine that takes a word looks at its pipe. -/
theorem of_head {otherHead : Option Word} (moves : machine.Moves head after transfer)
    (same : machine.isAwaitingInput = true → otherHead = head) :
    machine.Moves otherHead after transfer := by
  cases moves with
  | run phase advanced => exact .run phase advanced
  | take phase oldest received =>
      exact .take phase ((same (by simp [isAwaitingInput, phase])).trans oldest) received
  | give phase => exact .give phase

theorem isAwaitingInput_of_take (moves : machine.Moves head after transfer)
    (takes : transfer = .take) : machine.isAwaitingInput = true := by
  cases moves with
  | run => contradiction
  | take phase => simp [isAwaitingInput, phase]
  | give => contradiction

end Machine.Moves

namespace Ring

variable {last : Nat}

/-- Puts a value in its place in a row. -/
def put {α : Type} {count : Nat} (row : Vector α count) (i : Fin count) (value : α) :
    Vector α count :=
  row.set i value

/-- Carries out what a machine does to the pipes, its own and the one after it. -/
def transferAt {count : Nat} (own next : Fin count) (transfer : Transfer)
    (pipes : Vector (List Word) count) : Vector (List Word) count :=
  match transfer with
  | .nothing => pipes
  | .take => pipes.set own pipes[own].tail
  | .give word => pipes.set next (pipes[next] ++ [word])

/-- One pick of a scheduler: machine `i` can move, and its resume answers without a fault. -/
def Picks (ring : Ring last) (i : Fin (last + 1)) (next : Ring last) : Prop :=
  ring.canResume i = true ∧ ∃ fuel reason, ring.resumeAt fuel i = some (next, .ok reason)

inductive Follows : Ring last → List (Fin (last + 1)) → Ring last → Prop
  | done (ring : Ring last) : Follows ring [] ring
  | pick {ring middle final : Ring last} {i : Fin (last + 1)} {rest : List (Fin (last + 1))}
      (picked : ring.Picks i middle) (followed : Follows middle rest final) :
      Follows ring (i :: rest) final

def IsStuck (ring : Ring last) : Prop :=
  ∀ i, ring.canResume i = false

theorem after_injective {i j : Fin (last + 1)} (same : after i = after j) : i = j :=
  add_right_cancel same

section Resume

variable {ring : Ring last} {i : Fin (last + 1)}

theorem canResume_eq : ring.canResume i =
    (!(ring.machines.get i).isHalted &&
      !((ring.machines.get i).isAwaitingInput && (ring.pipes.get i).isEmpty)) := rfl

theorem canResume_eq_false_iff :
    ring.canResume i = false ↔
      (ring.machines.get i).isHalted = true ∨
        ((ring.machines.get i).isAwaitingInput = true ∧ ring.pipes.get i = []) := by
  rw [canResume_eq]
  cases (ring.machines.get i).isHalted <;> simp

theorem resumeAt_running {fuel : Nat} (phase : (ring.machines.get i).phase = .running) :
    ring.resumeAt fuel i = ((ring.machines.get i).advance fuel).map fun (machine, outcome) =>
      ({ ring with machines := put ring.machines i machine }, outcome) := by
  have running : ring.machines[i].phase = .running := phase
  simp only [resumeAt, Machine.resume, running]
  rfl

theorem resumeAt_reading {fuel : Nat} {instruction : Instruction}
    (phase : (ring.machines.get i).phase = .reading instruction) :
    ring.resumeAt fuel i =
      let received := (ring.machines.get i).receive instruction (.ofValue? (ring.pipes.get i).head?)
      some ({ machines := put ring.machines i received.1,
              pipes := put ring.pipes i (ring.pipes.get i).tail }, received.2) := by
  have reading : ring.machines[i].phase = .reading instruction := phase
  simp only [resumeAt, Machine.resume, reading]
  rfl

theorem resumeAt_writing {fuel : Nat} {word : Word}
    (phase : (ring.machines.get i).phase = .writing word) :
    ring.resumeAt fuel i =
      some ({ machines := put ring.machines i { ring.machines.get i with phase := .running },
              pipes := put ring.pipes (after i) (ring.pipes.get (after i) ++ [word]) },
        .ok .afterOutput) := by
  have writing : ring.machines[i].phase = .writing word := phase
  simp only [resumeAt, Machine.resume, writing]
  rfl

theorem resumeAt_halted {fuel : Nat} (phase : (ring.machines.get i).phase = .halted) :
    ring.resumeAt fuel i =
      some ({ ring with machines := put ring.machines i (ring.machines.get i) }, .ok .halted) := by
  have halted : ring.machines[i].phase = .halted := phase
  simp only [resumeAt, Machine.resume, halted]
  rfl

theorem resumeAt_faulted {fuel : Nat} {fault : Fault}
    (phase : (ring.machines.get i).phase = .faulted fault) :
    ring.resumeAt fuel i =
      some ({ ring with machines := put ring.machines i (ring.machines.get i) }, .error fault) := by
  have faulted : ring.machines[i].phase = .faulted fault := phase
  simp only [resumeAt, Machine.resume, faulted]
  rfl

theorem pipe_ne_nil (can : ring.canResume i = true)
    (awaiting : (ring.machines.get i).isAwaitingInput = true) : ring.pipes.get i ≠ [] := by
  intro empty
  simp only [canResume_eq, awaiting, empty, List.isEmpty_nil, Bool.and_self, Bool.not_true,
    Bool.and_false, Bool.false_eq_true] at can

/-- What a pick does, by what the machine was in the middle of. -/
theorem picks_iff {next : Ring last} :
    ring.Picks i next ↔ ∃ machine transfer,
      (ring.machines.get i).Moves (ring.pipes.get i).head? machine transfer ∧
      next = { machines := put ring.machines i machine,
               pipes := transferAt i (after i) transfer ring.pipes } := by
  constructor
  · rintro ⟨can, fuel, reason, resumed⟩
    cases phase : (ring.machines.get i).phase with
    | running =>
        rw [resumeAt_running phase, Option.map_eq_some_iff] at resumed
        obtain ⟨⟨machine, outcome⟩, advanced, same⟩ := resumed
        cases same
        exact ⟨machine, .nothing, .run phase advanced, rfl⟩
    | reading instruction =>
        have waits : (ring.machines.get i).isAwaitingInput = true := by
          simp only [Machine.isAwaitingInput, phase]
        obtain ⟨word, rest, pipe⟩ := List.exists_cons_of_ne_nil (pipe_ne_nil can waits)
        have oldest : (ring.pipes.get i).head? = some word := by rw [pipe]; rfl
        simp only [resumeAt_reading phase, oldest, Offer.ofValue?, Option.some.injEq,
          Prod.mk.injEq] at resumed
        exact ⟨_, .take, .take phase oldest (Prod.ext rfl resumed.2), resumed.1.symm⟩
    | writing word =>
        rw [resumeAt_writing phase] at resumed
        cases resumed
        exact ⟨_, .give word, .give phase, rfl⟩
    | halted =>
        simp only [canResume_eq, Machine.isHalted, phase, Bool.not_true, Bool.false_and,
          Bool.false_eq_true] at can
    | faulted fault =>
        rw [resumeAt_faulted phase] at resumed
        cases resumed
  · rintro ⟨machine, transfer, moves, rfl⟩
    cases moves with
    | @run fuel _ reason phase advanced =>
        refine ⟨?_, fuel, reason, ?_⟩
        · simp only [canResume_eq, Machine.isHalted, Machine.isAwaitingInput, phase, Bool.not_false,
            Bool.false_and, Bool.and_self]
        · rw [resumeAt_running phase, advanced]
          rfl
    | @take _ _ _ reason phase oldest received =>
        refine ⟨?_, 0, reason, ?_⟩
        · obtain ⟨rest, pipe⟩ := List.head?_eq_some_iff.mp oldest
          simp only [canResume_eq, Machine.isHalted, Machine.isAwaitingInput, phase, pipe,
            List.isEmpty_cons, Bool.not_false, Bool.and_false, Bool.and_self]
        · simp only [resumeAt_reading phase, oldest, Offer.ofValue?, received]
          rfl
    | give phase =>
        refine ⟨?_, 0, .afterOutput, ?_⟩
        · simp only [canResume_eq, Machine.isHalted, Machine.isAwaitingInput, phase, Bool.not_false,
            Bool.false_and, Bool.and_self]
        · rw [resumeAt_writing phase]
          rfl

end Resume

section Commutation

variable {count : Nat} {i j next nextOther : Fin count} {pipes : Vector (List Word) count}
  {first second : Transfer}

/-- What another machine does to the pipes leaves the oldest word of a pipe in its place. -/
theorem head_transferAt (different : i ≠ j) (filled : pipes[j] ≠ []) :
    (transferAt i next first pipes)[j].head? = pipes[j].head? := by
  cases first with
  | nothing => rfl
  | take =>
      have apart : i.val ≠ j.val := fun same => different (Fin.ext same)
      simp only [transferAt, Fin.getElem_fin, Vector.getElem_set_ne _ _ apart]
  | give word =>
      by_cases same : next.val = j.val
      · obtain ⟨oldest, rest, pipe⟩ := List.exists_cons_of_ne_nil filled
        simp only [Fin.getElem_fin] at pipe
        simp only [transferAt, Fin.getElem_fin, same, Vector.getElem_set_self, pipe,
          List.cons_append, List.head?_cons]
      · simp only [transferAt, Fin.getElem_fin, Vector.getElem_set_ne _ _ same]

theorem ne_nil_transferAt (different : i ≠ j) (filled : pipes[j] ≠ []) :
    (transferAt i next first pipes)[j] ≠ [] := by
  have kept : (transferAt i next first pipes)[j].head? = pipes[j].head? :=
    head_transferAt different filled
  intro empty
  rw [empty] at kept
  exact filled (List.head?_eq_none_iff.mp kept.symm)

/-- A take commutes with every transfer of another machine: they meet in no pipe, or at the
two ends of one that is not empty. -/
theorem transferAt_take_comm (different : i ≠ j) (filled : pipes[i] ≠ []) :
    transferAt j nextOther second (transferAt i next .take pipes) =
      transferAt i next .take (transferAt j nextOther second pipes) := by
  have apart : i.val ≠ j.val := fun same => different (Fin.ext same)
  cases second with
  | nothing => rfl
  | take =>
      simp only [transferAt, Fin.getElem_fin, Vector.getElem_set_ne _ _ apart,
        Vector.getElem_set_ne _ _ apart.symm]
      exact Vector.set_comm _ _ apart
  | give word =>
      by_cases same : nextOther.val = i.val
      · simp only [Fin.getElem_fin] at filled
        simp only [transferAt, Fin.getElem_fin, same, Vector.getElem_set_self, Vector.set_set,
          List.tail_append_of_ne_nil filled]
      · simp only [transferAt, Fin.getElem_fin, Vector.getElem_set_ne _ _ same,
          Vector.getElem_set_ne _ _ (Ne.symm same)]
        exact Vector.set_comm _ _ (Ne.symm same)

theorem transferAt_comm (different : i ≠ j) (nextDifferent : next ≠ nextOther)
    (filledFirst : first = .take → pipes[i] ≠ []) (filledSecond : second = .take → pipes[j] ≠ []) :
    transferAt j nextOther second (transferAt i next first pipes) =
      transferAt i next first (transferAt j nextOther second pipes) := by
  cases first with
  | nothing => rfl
  | take => exact transferAt_take_comm different (filledFirst rfl)
  | give left =>
      cases second with
      | nothing => rfl
      | take => exact (transferAt_take_comm different.symm (filledSecond rfl)).symm
      | give right =>
          have apart : next.val ≠ nextOther.val := fun same => nextDifferent (Fin.ext same)
          simp only [transferAt, Fin.getElem_fin, Vector.getElem_set_ne _ _ apart,
            Vector.getElem_set_ne _ _ apart.symm]
          exact Vector.set_comm _ _ apart

theorem get_put {α : Type} {row : Vector α count} {value : α} :
    (put row i value).get j = if i = j then value else row.get j := by
  have changed : (put row i value).get j = (row.set i value)[j.val] := rfl
  rw [changed, Vector.getElem_set]
  simp only [Fin.ext_iff]
  rfl

theorem get_put_ne {α : Type} {row : Vector α count} {value : α} (different : i ≠ j) :
    (put row i value).get j = row.get j := by
  rw [get_put, if_neg different]

theorem put_get {α : Type} {row : Vector α count} : put row i (row.get i) = row :=
  Vector.set_getElem_self i.isLt

theorem put_put {α : Type} {row : Vector α count} {value other : α} :
    put (put row i value) i other = put row i other :=
  Vector.set_set _ _

/-- A change in one place shows nowhere that the change leaves as it was. -/
theorem apply_get_put {α β : Type} (view : α → β) {row : Vector α count} {value : α}
    (same : view value = view (row.get i)) : view ((put row i value).get j) = view (row.get j) := by
  rw [get_put]
  split
  · subst j
    exact same
  · rfl

end Commutation

section Picks

variable {ring middle next final : Ring last} {i j : Fin (last + 1)}
  {picks others : List (Fin (last + 1))}

/-- A machine that can move still can after another one moved. -/
theorem Picks.canResume_other (picked : ring.Picks i middle) (different : i ≠ j)
    (can : ring.canResume j = true) : middle.canResume j = true := by
  obtain ⟨machine, transfer, _, rfl⟩ := picks_iff.mp picked
  simp only [canResume_eq, get_put_ne different]
  cases awaiting : (ring.machines.get j).isAwaitingInput with
  | false => simpa only [canResume_eq, awaiting, Bool.false_and] using can
  | true =>
      have before := pipe_ne_nil can awaiting
      have afterwards : (transferAt i (after i) transfer ring.pipes).get j ≠ [] :=
        ne_nil_transferAt different before
      simpa only [canResume_eq, awaiting, List.isEmpty_eq_false_iff.mpr before,
        List.isEmpty_eq_false_iff.mpr afterwards] using can

/-- Two picks in a row of machines that could both move to begin with can be swapped. -/
theorem Picks.swap (picked : ring.Picks i middle) (pickedNext : middle.Picks j next)
    (different : i ≠ j) (can : ring.canResume j = true) :
    ∃ other, ring.Picks j other ∧ other.Picks i next := by
  have canFirst := picked.1
  obtain ⟨machine, transfer, moves, rfl⟩ := picks_iff.mp picked
  obtain ⟨machineNext, transferNext, movesNext, rfl⟩ := picks_iff.mp pickedNext
  rw [get_put_ne different] at movesNext
  have filled (takes : (ring.machines.get i).isAwaitingInput = true) := pipe_ne_nil canFirst takes
  have filledNext (takes : (ring.machines.get j).isAwaitingInput = true) := pipe_ne_nil can takes
  have movesNow : (ring.machines.get j).Moves (ring.pipes.get j).head? machineNext transferNext :=
    movesNext.of_head fun takes => (head_transferAt different (filledNext takes)).symm
  have pickedNow := picks_iff.mpr ⟨machineNext, transferNext, movesNow, rfl⟩
  refine ⟨_, pickedNow, picks_iff.mpr ⟨machine, transfer, ?_, ?_⟩⟩
  · rw [get_put_ne different.symm]
    exact moves.of_head fun takes => head_transferAt different.symm (filled takes)
  · have machines : put (put ring.machines i machine) j machineNext =
        put (put ring.machines j machineNext) i machine :=
      Vector.set_comm _ _ fun same => different (Fin.ext same)
    have pipes : transferAt j (after j) transferNext (transferAt i (after i) transfer ring.pipes) =
        transferAt i (after i) transfer (transferAt j (after j) transferNext ring.pipes) :=
      transferAt_comm different (fun same => different (after_injective same))
        (fun takes => filled (moves.isAwaitingInput_of_take takes))
        (fun takes => filledNext (movesNow.isAwaitingInput_of_take takes))
    rw [machines, pipes]

theorem Picks.unique {other : Ring last} (picked : ring.Picks i next) (again : ring.Picks i other) :
    next = other := by
  obtain ⟨machine, transfer, moves, rfl⟩ := picks_iff.mp picked
  obtain ⟨otherMachine, otherTransfer, otherMoves, rfl⟩ := picks_iff.mp again
  obtain ⟨rfl, rfl⟩ := moves.unique otherMoves
  rfl

theorem Follows.append {rest : List (Fin (last + 1))} (followed : ring.Follows picks middle)
    (further : middle.Follows rest final) : ring.Follows (picks ++ rest) final := by
  induction followed with
  | done ring => exact further
  | pick picked _ ih => exact .pick picked (ih further)

/-- A schedule that ends with no machine able to move picks every machine that can move now,
and may as well pick it first. -/
theorem Follows.pick_first (followed : ring.Follows picks final) (stuck : final.IsStuck)
    (can : ring.canResume i = true) :
    ∃ next rest, ring.Picks i next ∧ next.Follows rest final ∧ picks.Perm (i :: rest) := by
  induction followed with
  | done ring => exact absurd can (by simp [stuck i])
  | @pick ring middle final first rest picked followed ih =>
      by_cases same : first = i
      · subst first
        exact ⟨middle, rest, picked, followed, .refl _⟩
      · obtain ⟨next, later, pickedNext, followedNext, permuted⟩ :=
          ih stuck (picked.canResume_other same can)
        obtain ⟨other, pickedFirst, pickedThen⟩ := picked.swap pickedNext same can
        refine ⟨other, first :: later, pickedFirst, .pick pickedThen followedNext, ?_⟩
        exact (permuted.cons first).trans (.swap i first later)

/-- From wherever another schedule has come, the same end is reached by what it has not
picked yet. -/
theorem Follows.complete {ring' : Ring last} (followed : ring.Follows picks final)
    (stuck : final.IsStuck) (other : ring.Follows others ring') :
    ∃ rest, ring'.Follows rest final ∧ picks.Perm (others ++ rest) := by
  induction other generalizing picks with
  | done ring => exact ⟨picks, followed, .refl _⟩
  | @pick ring middle ring' i others picked _ ih =>
      obtain ⟨next, rest, pickedFirst, followedNext, permuted⟩ :=
        followed.pick_first stuck picked.1
      rw [picked.unique pickedFirst] at ih
      obtain ⟨later, reached, permutedLater⟩ := ih followedNext
      exact ⟨later, reached, permuted.trans (permutedLater.cons i)⟩

end Picks

end Ring

end Intcode
