import Intcode.Proofs.Network.Turns

namespace Intcode.Ring

open Relation

variable {last : Nat} {origin ring final : Ring last} {picks others : List (Fin (last + 1))}

/-- Every schedule of a ring settles in one state, in which no machine can move, after the
same number of resumes of each machine. -/
structure SettlesIn (origin : Ring last) (picks : List (Fin (last + 1))) (final : Ring last) :
    Prop where
  /-- No schedule meets a resume that does not return. -/
  returns : ∀ others ring, origin.Follows others ring →
    ∀ i, ring.canResume i = true → ∃ next, ring.Picks i next
  /-- No schedule meets a resume that fails. -/
  succeeds : ∀ others ring, origin.Follows others ring →
    ∀ i, ring.canResume i = true → ∀ fuel next fault, ring.resumeAt fuel i ≠ some (next, .error fault)
  /-- Every schedule can be extended to one that ends there. -/
  extends_to : ∀ others ring, origin.Follows others ring →
    ∃ rest, ring.Follows rest final ∧ ∀ i, (others ++ rest).count i = picks.count i
  /-- No schedule ends anywhere else. -/
  only : ∀ others ring, origin.Follows others ring → ring.IsStuck →
    ring = final ∧ ∀ i, others.count i = picks.count i

theorem resumeAt_mono {fuel more : Nat} {i : Fin (last + 1)} {answer : Ring last × Outcome}
    (answered : ring.resumeAt fuel i = some answer) (enough : fuel ≤ more) :
    ring.resumeAt more i = some answer := by
  cases phase : (ring.machines.get i).phase with
  | running =>
      rw [resumeAt_running phase, Option.map_eq_some_iff] at answered
      obtain ⟨next, advanced, same⟩ := answered
      rw [resumeAt_running phase, Machine.advance_mono advanced enough, Option.map_some, same]
  | reading => rwa [resumeAt_reading phase] at answered ⊢
  | writing => rwa [resumeAt_writing phase] at answered ⊢
  | halted => rwa [resumeAt_halted phase] at answered ⊢
  | faulted => rwa [resumeAt_faulted phase] at answered ⊢

theorem Picks.resumeAt_ne_error {i : Fin (last + 1)} {next other : Ring last} {fuel : Nat}
    {fault : Fault} (picked : ring.Picks i next) :
    ring.resumeAt fuel i ≠ some (other, .error fault) := by
  intro failed
  obtain ⟨_, enough, reason, resumed⟩ := picked
  have atFirst := resumeAt_mono failed (Nat.le_max_left fuel enough)
  have atSecond := resumeAt_mono resumed (Nat.le_max_right fuel enough)
  have same := Option.some.inj (atFirst.symm.trans atSecond)
  cases congrArg Prod.snd same

theorem Follows.eq_of_isStuck (followed : ring.Follows picks final) (stuck : ring.IsStuck) :
    ring = final ∧ picks = [] := by
  cases followed with
  | done => exact ⟨rfl, rfl⟩
  | pick picked => exact absurd picked.1 (by simp [stuck _])

theorem Follows.settlesIn (followed : origin.Follows picks final) (stuck : final.IsStuck) :
    origin.SettlesIn picks final := by
  have picked (others ring) (other : origin.Follows others ring) (i)
      (can : ring.canResume i = true) : ∃ next, ring.Picks i next := by
    obtain ⟨rest, completed, _⟩ := followed.complete stuck other
    obtain ⟨next, _, first, _, _⟩ := completed.pick_first stuck can
    exact ⟨next, first⟩
  refine ⟨picked, ?_, ?_, ?_⟩
  · intro others ring other i can fuel next fault
    obtain ⟨_, first⟩ := picked others ring other i can
    exact first.resumeAt_ne_error
  · intro others ring other
    obtain ⟨rest, completed, permuted⟩ := followed.complete stuck other
    exact ⟨rest, completed, fun i => (permuted.count_eq i).symm⟩
  · intro others ring other still
    obtain ⟨rest, completed, permuted⟩ := followed.complete stuck other
    obtain ⟨same, rfl⟩ := completed.eq_of_isStuck still
    rw [List.append_nil] at permuted
    exact ⟨same, fun i => (permuted.count_eq i).symm⟩

def phaseRow (phases : List Word) : Vector Word phases.length :=
  ⟨phases.toArray, List.size_toArray⟩

/-- The ring that is started for a row of phases that is not empty. -/
def ofPhases (program : Program) (phase : Word) (rest : List Word) : Ring rest.length :=
  start program (phaseRow (phase :: rest))

/-- The outcome of a ring that comes to a standstill does not depend on the schedule, and
the round robin reports a deadlock in the very state in which every schedule ends. -/
theorem standstill_is_schedule_independent (program : Program) (phase : Word) (rest : List Word) :
    (∀ picks final, (ofPhases program phase rest).Follows picks final → final.IsStuck →
      (ofPhases program phase rest).SettlesIn picks final) ∧
    (∀ report fuel,
      Id.run (Ring.run report fuel program (phase :: rest)) = some (.error .deadlock) →
      ∃ picks, ∃ rotation : Rotation rest.length,
        ReflTransGen Rotation.Turns { ring := ofPhases program phase rest } rotation ∧
        rotation.Ends (.error .deadlock) ∧
        (ofPhases program phase rest).Follows picks rotation.ring ∧ rotation.ring.IsStuck ∧
        (ofPhases program phase rest).SettlesIn picks rotation.ring) := by
  refine ⟨fun picks final followed stuck => followed.settlesIn stuck, ?_⟩
  intro report fuel deadlocked
  obtain ⟨rotation, reached, ends⟩ := Rotation.ends_of_run deadlocked
  obtain ⟨picks, followed⟩ := Rotation.follows_of_turns reached
  have passed := Rotation.passedCannotMove_of_turns reached
    (fun _ i earlier => absurd earlier (Nat.not_lt_zero _))
  have stuck := Rotation.isStuck_of_deadlock passed ends
  exact ⟨picks, rotation, reached, ends, followed, stuck, followed.settlesIn stuck⟩

/-- Two machines that ask for three values each starve, whoever moves first. -/
theorem starved_pair_settles :
    Id.run (Ring.run (fun _ => pure ()) 30 ⟨[3, 0, 3, 0, 3, 0, 99]⟩ [1, 2]) =
      some (.error .deadlock) ∧
    ∃ picks final, final.IsStuck ∧
      (ofPhases ⟨[3, 0, 3, 0, 3, 0, 99]⟩ 1 [2]).SettlesIn picks final := by
  have deadlocked : Id.run (Ring.run (fun _ => pure ()) 30 ⟨[3, 0, 3, 0, 3, 0, 99]⟩ [1, 2]) =
      some (.error .deadlock) := by decide +kernel
  obtain ⟨picks, rotation, _, _, _, stuck, settles⟩ :=
    (standstill_is_schedule_independent ⟨[3, 0, 3, 0, 3, 0, 99]⟩ 1 [2]).2 _ 30 deadlocked
  exact ⟨deadlocked, picks, rotation.ring, stuck, settles⟩

end Intcode.Ring
