import Intcode.Proofs.Network.Ledger

namespace Intcode

open Relation

namespace Ring

variable {last : Nat}

/-- The machine before machine `i`; before number zero comes the last one. -/
def before (i : Fin (last + 1)) : Fin (last + 1) :=
  i + Fin.last last

theorem before_eq {i : Fin (last + 1)} : before i = i - 1 := by
  rw [before, eq_neg_of_add_eq_zero_left (Fin.last_add_one last), sub_eq_add_neg]

theorem after_eq_iff {i j : Fin (last + 1)} : after i = j ↔ i = before j := by
  rw [before_eq]
  exact eq_sub_iff_add_eq.symm

theorem before_zero : before (0 : Fin (last + 1)) = Fin.last last :=
  zero_add _

/-- No word of the seeds, and none that was written, is lost, doubled or out of place. -/
def Conserves (seeds pipes : Vector (List Word) (last + 1))
    (ledgers : Vector Ledger (last + 1)) : Prop :=
  ∀ i, (ledgers.get i).taken ++ pipes.get i = seeds.get i ++ (ledgers.get (before i)).written

theorem Conserves.start {seeds : Vector (List Word) (last + 1)} :
    Conserves seeds seeds (Vector.replicate (last + 1) {}) := by
  intro i
  have blank (j : Fin (last + 1)) : (Vector.replicate (last + 1) ({} : Ledger)).get j = {} :=
    Vector.getElem_replicate j.isLt
  rw [blank, blank, List.nil_append, List.append_nil]

theorem Conserves.transfer {seeds pipes : Vector (List Word) (last + 1)}
    {ledgers : Vector Ledger (last + 1)} (conserved : Conserves seeds pipes ledgers)
    (j : Fin (last + 1)) (transfer : Transfer) :
    Conserves seeds (transferAt j (after j) transfer pipes)
      (put ledgers j (transfer.record (pipes.get j).head? (ledgers.get j))) := by
  intro i
  cases transfer with
  | nothing =>
      rw [Transfer.record_nothing, apply_get_put Ledger.taken rfl, apply_get_put Ledger.written rfl]
      exact conserved i
  | take =>
      have shorter : transferAt j (after j) .take pipes = put pipes j (pipes.get j).tail := rfl
      rw [apply_get_put Ledger.written Transfer.written_record_take, ← conserved i, shorter,
        get_put, get_put]
      by_cases own : j = i
      · subst i
        rw [if_pos rfl, if_pos rfl]
        cases pipe : pipes.get j with
        | nil => simp [Transfer.record]
        | cons oldest later => simp [Transfer.record]
      · rw [if_neg own, if_neg own]
  | give word =>
      have longer : transferAt j (after j) (.give word) pipes =
          put pipes (after j) (pipes.get (after j) ++ [word]) := rfl
      rw [apply_get_put Ledger.taken Transfer.taken_record_give, longer, get_put, get_put]
      by_cases next : after j = i
      · have writer := after_eq_iff.mp next
        rw [if_pos next, if_pos writer, next, writer, ← List.append_assoc, conserved i,
          List.append_assoc]
        rfl
      · rw [if_neg next, if_neg fun writer => next (after_eq_iff.mpr writer)]
        exact conserved i

end Ring

namespace Rotation

open Intcode.Ring

variable {last : Nat} {start rotation : Rotation last} {ledgers : Vector Ledger (last + 1)}

theorem Keeps.conserves (kept : start.Keeps ledgers rotation) :
    Conserves start.ring.pipes rotation.ring.pipes ledgers := by
  induction kept with
  | start => exact .start
  | step _ stepped ih =>
      cases steps_of_step? stepped with
      | moved inside picked =>
          obtain ⟨machine, transfer, moves, rfl⟩ := picks_iff.mp picked
          rw [ledgersAfter_moved inside picked.1 moves]
          exact ih.transfer _ transfer
      | passed inside cannot =>
          rw [ledgersAfter_passed inside cannot]
          exact ih
      | renewed finished =>
          rw [ledgersAfter_finished finished]
          exact ih

/-- The oldest word in pipe zero is what machine zero would take next. -/
theorem Keeps.oldest_eq (kept : start.Keeps ledgers rotation) :
    rotation.ring.oldest? =
      (start.ring.pipes.get 0 ++ (ledgers.get (Fin.last last)).written)[
        (ledgers.get 0).taken.length]? := by
  have oldest : rotation.ring.oldest? = (rotation.ring.pipes.get 0).head? := rfl
  have balanced := kept.conserves 0
  rw [before_zero] at balanced
  rw [oldest, ← balanced, List.getElem?_append_right (Nat.le_refl _), Nat.sub_self,
    List.head?_eq_getElem?]

end Rotation

namespace Ring

open Rotation

/-- What pipe `i` holds before the first machine has moved. -/
def seed (phase : Word) (rest : List Word) (i : Fin (rest.length + 1)) : List Word :=
  if i = 0 then [phase, 0] else [(phase :: rest).get i]

theorem seeds_eq (program : Program) (phase : Word) (rest : List Word)
    (i : Fin (rest.length + 1)) :
    (firstRound program phase rest).ring.pipes.get i = seed phase rest i := by
  have planted : (firstRound program phase rest).ring.pipes.get i =
      if i = 0 then [(phase :: rest).get i, 0] else [(phase :: rest).get i] :=
    Vector.getElem_ofFn i.isLt
  rw [planted, seed]
  split
  · subst i
    rfl
  · rfl

theorem oldest_eq_of_keeps {program : Program} {phase : Word} {rest : List Word}
    {ledgers : Vector Ledger (rest.length + 1)} {rotation : Rotation rest.length}
    (kept : (firstRound program phase rest).Keeps ledgers rotation) :
    rotation.ring.oldest? =
      ([phase, 0] ++ (ledgers.get (Fin.last _)).written)[(ledgers.get 0).taken.length]? := by
  rw [kept.oldest_eq, seeds_eq]
  rfl

/-- No word is lost, doubled or reordered in a ring, so the signal is the first word that
machine zero has not taken of all that was ever put into its pipe. -/
theorem words_are_conserved (report : Event → Id Unit) (program : Program) (phase : Word)
    (rest : List Word) :
    (∀ rotation, ReflTransGen Turns (firstRound program phase rest) rotation →
      ∃ ledgers, (firstRound program phase rest).Keeps ledgers rotation) ∧
    (∀ ledgers rotation, (firstRound program phase rest).Keeps ledgers rotation → ∀ i,
      (ledgers.get i).taken ++ rotation.ring.pipes.get i =
        seed phase rest i ++ (ledgers.get (before i)).written) ∧
    (∀ word, Answers report program (phase :: rest) (.ok word) ↔
      ∃ ledgers rotation, (firstRound program phase rest).Keeps ledgers rotation ∧
        rotation.IsDone ∧
        ([phase, 0] ++ (ledgers.get (Fin.last _)).written)[(ledgers.get 0).taken.length]? =
          some word) ∧
    (∀ index, Answers report program (phase :: rest) (.error (.noOutput index)) ↔
      index = rest.length ∧
      ∃ ledgers rotation, (firstRound program phase rest).Keeps ledgers rotation ∧
        rotation.IsDone ∧
        ([phase, 0] ++ (ledgers.get (Fin.last _)).written)[(ledgers.get 0).taken.length]? =
          none) := by
  refine ⟨fun rotation reached => exists_keeps reached, ?_, ?_, ?_⟩
  · intro ledgers rotation kept i
    rw [kept.conserves i, seeds_eq]
  · intro word
    rw [answers_iff]
    constructor
    · rintro ⟨rotation, reached, ends⟩
      obtain ⟨ledgers, kept⟩ := exists_keeps reached
      obtain ⟨done, found⟩ := ends_ok_iff.mp ends
      exact ⟨ledgers, rotation, kept, done, (oldest_eq_of_keeps kept).symm.trans found⟩
    · rintro ⟨ledgers, rotation, kept, done, found⟩
      exact ⟨rotation, kept.reached, ends_ok_iff.mpr ⟨done, (oldest_eq_of_keeps kept).trans found⟩⟩
  · intro index
    rw [answers_iff]
    constructor
    · rintro ⟨rotation, reached, ends⟩
      obtain ⟨ledgers, kept⟩ := exists_keeps reached
      obtain ⟨same, done, empty⟩ := ends_noOutput_iff.mp ends
      exact ⟨same, ledgers, rotation, kept, done, (oldest_eq_of_keeps kept).symm.trans empty⟩
    · rintro ⟨same, ledgers, rotation, kept, done, missing⟩
      exact ⟨rotation, kept.reached,
        ends_noOutput_iff.mpr ⟨same, done, (oldest_eq_of_keeps kept).trans missing⟩⟩

/-- Takes two words and hands out their sum. -/
def adder : Program :=
  ⟨[3, 11, 3, 12, 1, 11, 12, 13, 4, 13, 99, 0, 0, 0]⟩

theorem words_conserved_in_adding_pair :
    Answers (fun _ => pure ()) adder [5, 7] (.ok 12) ∧
    ∃ ledgers rotation, (firstRound adder 5 [7]).Keeps ledgers rotation ∧
      ([5, 0] ++ (ledgers.get (Fin.last _)).written)[(ledgers.get 0).taken.length]? = some 12 ∧
      ∀ i, (ledgers.get i).taken ++ rotation.ring.pipes.get i =
        seed 5 [7] i ++ (ledgers.get (before i)).written := by
  have answered : Answers (fun _ => pure ()) adder [5, 7] (.ok 12) := ⟨40, by decide +kernel⟩
  obtain ⟨_, conserved, answers, _⟩ := words_are_conserved (fun _ => pure ()) adder 5 [7]
  obtain ⟨ledgers, rotation, kept, _, found⟩ := (answers 12).mp answered
  exact ⟨answered, ledgers, rotation, kept, found, conserved ledgers rotation kept⟩

section Signal

/-- Once machine zero has taken both seeds of its pipe, the signal is a word that the last
machine has written, and there is none if it has written nothing. Until then the signal is
the first of the seeds that is left. -/
theorem signal_follows_seeds (report : Event → Id Unit) (program : Program) (phase : Word)
    (rest : List Word) :
    (∀ word, Answers report program (phase :: rest) (.ok word) →
      ∃ ledgers rotation, (firstRound program phase rest).Keeps ledgers rotation ∧
        rotation.Ends (.ok word) ∧
        (2 ≤ (ledgers.get 0).taken.length ∧
            (ledgers.get (Fin.last _)).written[(ledgers.get 0).taken.length - 2]? = some word ∨
          (ledgers.get 0).taken.length < 2 ∧
            [phase, 0][(ledgers.get 0).taken.length]? = some word)) ∧
    (∀ ledgers rotation, (firstRound program phase rest).Keeps ledgers rotation →
      rotation.IsDone → (ledgers.get (Fin.last _)).written = [] →
        (rotation.Ends (.error (.noOutput rest.length)) ↔ 2 ≤ (ledgers.get 0).taken.length)) := by
  constructor
  · intro word answers
    obtain ⟨rotation, reached, ends⟩ := answers_iff.mp answers
    obtain ⟨ledgers, kept⟩ := exists_keeps reached
    obtain ⟨_, found⟩ := ends_ok_iff.mp ends
    rw [oldest_eq_of_keeps kept] at found
    refine ⟨ledgers, rotation, kept, ends, ?_⟩
    rcases Nat.lt_or_ge (ledgers.get 0).taken.length 2 with left | both
    · rw [List.getElem?_append_left left] at found
      exact .inr ⟨left, found⟩
    · rw [List.getElem?_append_right both] at found
      exact .inl ⟨both, found⟩
  · intro ledgers rotation kept done silent
    rw [ends_noOutput_iff, oldest_eq_of_keeps kept, silent, List.append_nil,
      List.getElem?_eq_none_iff]
    exact ⟨fun none => none.2.2, fun both => ⟨rfl, done, both⟩⟩

/-- A machine that halts at once takes neither of its seeds and writes nothing. -/
theorem halting_machine_is_idle :
    ∃ ledgers rotation, (firstRound ⟨[99]⟩ 5 []).Keeps ledgers rotation ∧ rotation.IsDone ∧
      rotation.Ends (.ok 5) ∧ (ledgers.get 0).taken = [] ∧
      (ledgers.get (Fin.last _)).written = [] := by
  have halts : (Machine.ofProgram ⟨[99]⟩).Moves (some 5)
      { Machine.ofProgram ⟨[99]⟩ with pointer := 1, phase := .halted } .nothing :=
    .run rfl (rfl : Machine.advance 1 _ = some (_, .ok .halted))
  have begun : (firstRound ⟨[99]⟩ 5 []).Keeps _ (firstRound ⟨[99]⟩ 5 []) := .start
  have moved := begun.moved (show _ = (0 : Fin 1).val from rfl) halts
  have kept := moved.passed (show _ = (0 : Fin 1).val from rfl) rfl
  exact ⟨_, _, kept, ⟨by decide, rfl⟩, ⟨0, _, rfl⟩, rfl, rfl⟩

/-- A machine that adds its seeds signals the sum. One that halts at once leaves its seeds, so
that it does not count as silent although it has written nothing. -/
theorem sum_and_seed_are_signalled :
    (∃ ledgers rotation, (firstRound adder 5 []).Keeps ledgers rotation ∧
      rotation.Ends (.ok 5) ∧
      (2 ≤ (ledgers.get 0).taken.length ∧
          (ledgers.get (Fin.last _)).written[(ledgers.get 0).taken.length - 2]? = some 5 ∨
        (ledgers.get 0).taken.length < 2 ∧
          ([5, 0] : List Word)[(ledgers.get 0).taken.length]? = some 5)) ∧
    ∃ ledgers rotation, (firstRound ⟨[99]⟩ 5 []).Keeps ledgers rotation ∧ rotation.IsDone ∧
      (ledgers.get (Fin.last _)).written = [] ∧ ¬ rotation.Ends (.error (.noOutput 0)) := by
  have answered : Answers (fun _ => pure ()) adder [5] (.ok 5) := ⟨40, by decide +kernel⟩
  obtain ⟨ledgers, rotation, kept, done, _, untaken, silent⟩ := halting_machine_is_idle
  refine ⟨(signal_follows_seeds _ _ 5 []).1 5 answered, ledgers, rotation, kept, done, silent, ?_⟩
  intro ends
  have both : 2 ≤ (ledgers.get 0).taken.length :=
    ((signal_follows_seeds (fun _ => pure ()) ⟨[99]⟩ 5 []).2 _ _ kept done silent).mp ends
  rw [untaken] at both
  contradiction

/-- The phase of a machine that halts at once is the signal, although nothing was written. -/
theorem unwritten_phase_is_signalled :
    Answers (fun _ => pure ()) ⟨[99]⟩ [5] (.ok 5) ∧
    ¬ Answers (fun _ => pure ()) ⟨[99]⟩ [5] (.error (.noOutput 0)) ∧
    ∃ ledgers rotation, (firstRound ⟨[99]⟩ 5 []).Keeps ledgers rotation ∧
      rotation.Ends (.ok 5) ∧ (ledgers.get (Fin.last _)).written = [] := by
  have answered : Answers (fun _ => pure ()) ⟨[99]⟩ [5] (.ok 5) := ⟨5, by decide +kernel⟩
  obtain ⟨ledgers, rotation, kept, _, ends, _, silent⟩ := halting_machine_is_idle
  refine ⟨answered, ?_, ledgers, rotation, kept, ends, silent⟩
  intro none
  cases answered.unique none

end Signal

end Ring

end Intcode
