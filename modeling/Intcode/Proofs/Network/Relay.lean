import Intcode.Network.Chain
import Intcode.Proofs.Network.Conservation
import Intcode.Proofs.Network.Solo

namespace Intcode

/-- Has everything been taken that a machine is supplied with? -/
def Feed.isSpent : Feed → Bool
  | .source (.queue values) => values.isEmpty
  | .source (.stream ..) | .disconnected | .inbox => false

namespace Chain

/-- The answer of one stage of a chain and the endpoints it is left with. -/
def stageRun (report : Event → Id Unit) (fuel : Nat) (program : Program) (phase signal : Word) :
    Option (Except Fault Memory) × Endpoints :=
  Session.runsTo report fuel
    { machine := Machine.ofProgram program, ends := Endpoints.ofQueue [phase, signal] }

/-- From this signal on, every stage takes both of its values and hands out exactly one word,
which is the signal of the next. -/
def OneShot (report : Event → Id Unit) (fuel : Nat) (program : Program) (signal : Word) :
    (phases : List Word) → Prop
  | [] => True
  | phase :: rest =>
      (stageRun report fuel program phase signal).2.feed.isSpent = true ∧
      ∃ next, (stageRun report fuel program phase signal).2.outbox = #[next] ∧
        OneShot report fuel program next rest

variable {report : Event → Id Unit} {fuel index : Nat} {program : Program}
  {phase signal next output word : Word} {rest : List Word}

def stageAnswer (index : Nat) (run : Option (Except Fault Memory) × Endpoints) :
    Option (Except NetworkError Word) :=
  match run.1 with
  | none => none
  | some (.error fault) => some (.error (.failed index fault))
  | some (.ok _) =>
      match run.2.outbox.back? with
      | none => some (.error (.noOutput index))
      | some signal => some (.ok signal)

theorem stage_eq :
    Id.run (stage report fuel program index phase signal) =
      stageAnswer index (stageRun report fuel program phase signal) := rfl

theorem stageRun_of_stage
    (answered : Id.run (stage report fuel program index phase signal) = some (.ok next)) :
    ∃ memory ends, stageRun report fuel program phase signal = (some (.ok memory), ends) ∧
      ends.outbox.back? = some next := by
  rw [stage_eq] at answered
  cases ran : stageRun report fuel program phase signal with
  | mk answer ends =>
      simp only [stageAnswer, ran] at answered
      split at answered
      · cases answered
      · cases answered
      · split at answered
        · cases answered
        · cases answered
          exact ⟨_, ends, rfl, ‹_›⟩

/-- The machine of a one-shot stage, told by its ledger. -/
theorem solo_of_stage
    (answered : Id.run (stage report fuel program index phase signal) = some (.ok next))
    (spent : (stageRun report fuel program phase signal).2.feed.isSpent = true)
    (wrote : (stageRun report fuel program phase signal).2.outbox = #[output]) :
    output = next ∧ ∃ final ledger,
      Machine.Solo [phase, signal] (Machine.ofProgram program) final ledger ∧
      final.isHalted = true ∧ ledger.taken = [phase, signal] ∧ ledger.written = [next] := by
  obtain ⟨memory, ends, ran, newest⟩ := stageRun_of_stage answered
  rw [ran] at spent wrote
  dsimp only at spent wrote
  obtain rfl : output = next := by
    rw [wrote] at newest
    exact Option.some.inj newest
  obtain ⟨final, ledger, solo, halted, rfl⟩ := Session.solo_of_runsTo .start ran
  have all : [phase, signal].drop ledger.taken.length = [] := List.isEmpty_iff.mp spent
  have balanced := solo.taken_append_drop
  rw [all, List.append_nil] at balanced
  exact ⟨rfl, final, ledger, solo, halted, balanced, congrArg Array.toList wrote⟩

theorem runFrom_cons
    (answered : Id.run (runFrom report fuel program index signal (phase :: rest)) =
      some (.ok word)) :
    ∃ next, Id.run (stage report fuel program index phase signal) = some (.ok next) ∧
      Id.run (runFrom report fuel program (index + 1) next rest) = some (.ok word) := by
  cases staged : Id.run (stage report fuel program index phase signal) with
  | none =>
      simp only [runFrom, Id.run_bind, staged] at answered
      cases answered
  | some answer =>
      cases answer with
      | error error =>
          simp only [runFrom, Id.run_bind, staged] at answered
          cases answered
      | ok next =>
          simp only [runFrom, Id.run_bind, staged] at answered
          exact ⟨next, rfl, answered⟩

end Chain

namespace Rotation

open Intcode.Ring

variable {last : Nat} {start rotation : Rotation last} {ledgers : Vector Ledger (last + 1)}

/-- A machine whose turn it is does in the ring what it does by itself, if its inputs are what
its pipe began with and what the machine before it has written. -/
theorem Keeps.solo {i : Fin (last + 1)} {inputs : List Word} {machine : Machine} {ledger : Ledger}
    (kept : start.Keeps ledgers rotation) (turn : rotation.turn = i.val)
    (fresh : ledgers.get i = {})
    (fed : inputs <+: start.ring.pipes.get i ++ (ledgers.get (before i)).written)
    (solo : Machine.Solo inputs (rotation.ring.machines.get i) machine ledger) :
    ∃ after : Rotation last, start.Keeps (put ledgers i ledger) after ∧
      after.turn = rotation.turn ∧
      after.ring.machines = put rotation.ring.machines i machine := by
  induction solo with
  | start => exact ⟨rotation, by rwa [← fresh, put_get], rfl, put_get.symm⟩
  | @move machine moved ledger transfer solo moves ih =>
      obtain ⟨middle, keptMiddle, turnMiddle, machines⟩ := ih
      have own : (put ledgers i ledger).get i = ledger := by rw [get_put, if_pos rfl]
      have current : middle.ring.machines.get i = machine := by rw [machines, get_put, if_pos rfl]
      -- In a ring of one the machine itself fills its pipe, but only behind its inputs.
      have fedOn : inputs <+:
          start.ring.pipes.get i ++ ((put ledgers i ledger).get (before i)).written := by
        rw [get_put]
        split
        · next alone =>
            rw [← alone, fresh, List.append_nil] at fed
            exact fed.trans (List.prefix_append _ _)
        · exact fed
      have left : inputs.drop ledger.taken.length <+: middle.ring.pipes.get i := by
        have balanced := keptMiddle.conserves i
        rw [own] at balanced
        rwa [← balanced, ← solo.taken_append_drop, List.prefix_append_right_inj] at fedOn
      obtain ⟨movesHere, recorded⟩ := moves.of_prefix left
      rw [← current] at movesHere
      have keptOn := keptMiddle.moved (turnMiddle.trans turn) movesHere
      rw [own, recorded, put_put] at keptOn
      exact ⟨_, keptOn, turnMiddle, by rw [machines, put_put]⟩

end Rotation

namespace Ring

/-- A ring in its first round, when as many of its machines are done as a chain has run stages,
and the next one is to take this signal. -/
structure Relayed (program : Program) (phase : Word) (rest : List Word) (done : Nat)
    (signal : Word) (ledgers : Vector Ledger (rest.length + 1)) (rotation : Rotation rest.length) :
    Prop where
  kept : (firstRound program phase rest).Keeps ledgers rotation
  turn : rotation.turn = done
  untouched : ∀ i, done ≤ i.val →
    rotation.ring.machines.get i = Machine.ofProgram program ∧ ledgers.get i = {}
  first : done = 0 → signal = 0
  handedOn : ∀ i, i.val + 1 = done →
    (rotation.ring.machines.get i).isHalted = true ∧ (ledgers.get i).written = [signal]
  seedsTaken : 0 < done → (ledgers.get 0).taken.length = 2

variable {report : Event → Id Unit} {fuel done : Nat} {program : Program}
  {phase signal next word : Word} {rest : List Word} {ledgers : Vector Ledger (rest.length + 1)}
  {rotation : Rotation rest.length}

theorem relayed_start :
    Relayed program phase rest 0 0 (Vector.replicate _ {}) (firstRound program phase rest) where
  kept := .start
  turn := rfl
  untouched i _ := ⟨Vector.getElem_replicate i.isLt, Vector.getElem_replicate i.isLt⟩
  first _ := rfl
  handedOn i next := by cases next
  seedsTaken some := by cases some

/-- What lies in the pipe of the next machine are the two inputs of its stage in the chain. -/
theorem Relayed.fed (relayed : Relayed program phase rest done signal ledgers rotation)
    (i : Fin (rest.length + 1)) (turn : i.val = done) :
    [(phase :: rest).get i, signal] =
      (firstRound program phase rest).ring.pipes.get i ++ (ledgers.get (before i)).written := by
  rw [seeds_eq, seed]
  by_cases zero : i = 0
  · subst i
    have idle := (relayed.untouched (before 0) (turn ▸ Nat.zero_le _)).2
    rw [if_pos rfl, idle, relayed.first turn.symm]
    rfl
  · have previous : (before i).val + 1 = done := by
      have positive : i.val ≠ 0 := fun same => zero (Fin.ext same)
      rw [before_eq, Fin.val_sub_one_of_ne_zero zero]
      omega
    rw [if_neg zero, (relayed.handedOn _ previous).2]
    rfl

theorem Relayed.stage {final : Machine} {ledger : Ledger}
    (relayed : Relayed program phase rest done signal ledgers rotation)
    (i : Fin (rest.length + 1)) (turn : i.val = done)
    (solo : Machine.Solo [(phase :: rest).get i, signal] (Machine.ofProgram program) final ledger)
    (halted : final.isHalted = true) (taken : ledger.taken = [(phase :: rest).get i, signal])
    (written : ledger.written = [next]) :
    ∃ ledgers rotation, Relayed program phase rest (done + 1) next ledgers rotation := by
  obtain ⟨machine, fresh⟩ := relayed.untouched i (Nat.le_of_eq turn.symm)
  rw [← machine] at solo
  obtain ⟨after, kept, turnAfter, machines⟩ := relayed.kept.solo (relayed.turn.trans turn.symm)
    fresh (relayed.fed i turn ▸ List.prefix_rfl) solo
  have idle : after.ring.canResume i = false := by
    rw [canResume_eq_false_iff, machines, get_put, if_pos rfl]
    exact .inl halted
  have turnHere : after.turn = i.val := turnAfter.trans (relayed.turn.trans turn.symm)
  refine ⟨_, _, kept.passed turnHere idle, ?_, ?_, ?_, ?_, ?_⟩
  · rw [turnHere, turn]
  · intro j later
    have different : i ≠ j := by
      rintro rfl
      omega
    rw [machines, get_put_ne different, get_put_ne different]
    exact relayed.untouched j (Nat.le_of_succ_le later)
  · intro none
    cases none
  · intro j same
    obtain rfl : i = j := Fin.ext (by omega)
    rw [machines, get_put, get_put, if_pos rfl, if_pos rfl]
    exact ⟨halted, written⟩
  · intro _
    rw [get_put]
    split
    · rw [taken]
      rfl
    · next later =>
        have positive : i.val ≠ 0 := fun same => later (Fin.ext same)
        exact relayed.seedsTaken (by omega)

theorem Relayed.run {todo : List Word} {heard : List Word}
    (relayed : Relayed program phase rest heard.length signal ledgers rotation)
    (split : phase :: rest = heard ++ todo)
    (answered : Id.run (Chain.runFrom report fuel program heard.length signal todo) =
      some (.ok word))
    (oneShot : Chain.OneShot report fuel program signal todo) :
    ∃ ledgers rotation, Relayed program phase rest (rest.length + 1) word ledgers rotation := by
  induction todo generalizing heard signal ledgers rotation with
  | nil =>
      have every : heard.length = rest.length + 1 := by
        rw [← List.append_nil heard, ← split, List.length_cons]
      cases answered
      exact ⟨ledgers, rotation, every ▸ relayed⟩
  | cons current later ih =>
      have length : rest.length + 1 = heard.length + (later.length + 1) := by
        rw [← List.length_cons, split, List.length_append, List.length_cons]
      let i : Fin (rest.length + 1) := ⟨heard.length, by omega⟩
      have here : (phase :: rest).get i = current := by
        simp only [List.get_eq_getElem, split, i, List.getElem_append_right (Nat.le_refl _),
          Nat.sub_self, List.getElem_cons_zero]
      obtain ⟨next, staged, answeredLater⟩ := Chain.runFrom_cons answered
      obtain ⟨spent, output, wrote, oneShotLater⟩ := oneShot
      obtain ⟨rfl, final, ledger, solo, halted, taken, written⟩ :=
        Chain.solo_of_stage staged spent wrote
      rw [← here] at solo taken
      obtain ⟨ledgersNext, rotationNext, relayedNext⟩ :=
        relayed.stage i rfl solo halted taken written
      have heardNext : (heard ++ [current]).length = heard.length + 1 := List.length_append
      rw [← heardNext] at relayedNext answeredLater
      exact ih relayedNext (by rw [split, List.append_assoc, List.singleton_append]) answeredLater
        oneShotLater

theorem Relayed.ends
    (relayed : Relayed program phase rest (rest.length + 1) word ledgers rotation) :
    rotation.Ends (.ok word) := by
  obtain ⟨halted, written⟩ := relayed.handedOn (Fin.last _) rfl
  rw [Rotation.ends_ok_iff, oldest_eq_of_keeps relayed.kept, written,
    relayed.seedsTaken (Nat.succ_pos _)]
  exact ⟨⟨Nat.le_of_eq relayed.turn.symm, halted⟩, rfl⟩

/-- A chain in which every machine takes its two values and hands out one has the signal of the
ring with the same phases. -/
theorem ring_follows_one_shot_chain (report ringReport : Event → Id Unit) (fuel : Nat)
    (program : Program) (phase : Word) (rest : List Word) (word : Word)
    (answered : Id.run (Chain.run report fuel program (phase :: rest)) = some (.ok word))
    (oneShot : Chain.OneShot report fuel program 0 (phase :: rest)) :
    Answers ringReport program (phase :: rest) (.ok word) := by
  have begun : Relayed program phase rest ([] : List Word).length 0 _ _ := relayed_start
  obtain ⟨ledgers, rotation, relayed⟩ := begun.run rfl answered oneShot
  exact answers_iff.mpr ⟨rotation, relayed.kept.reached, relayed.ends⟩

theorem ring_follows_adding_chain :
    Id.run (Chain.run (fun _ => pure ()) 40 adder [5, 7]) = some (.ok 12) ∧
    Chain.OneShot (fun _ => pure ()) 40 adder 0 [5, 7] ∧
    Answers (fun _ => pure ()) adder [5, 7] (.ok 12) := by
  have answered : Id.run (Chain.run (fun _ => pure ()) 40 adder [5, 7]) = some (.ok 12) := by
    decide +kernel
  have oneShot : Chain.OneShot (fun _ => pure ()) 40 adder 0 [5, 7] :=
    ⟨by decide +kernel, 5, by decide +kernel, by decide +kernel, 12, by decide +kernel, trivial⟩
  exact ⟨answered, oneShot, ring_follows_one_shot_chain _ _ 40 _ 5 [7] 12 answered oneShot⟩

end Ring

end Intcode
