import Intcode.Proofs.Machine.Padding
import Intcode.Proofs.Wiring
import Mathlib.Data.List.Forall2

namespace Intcode

/-- A resume with the world that it finds and the world that it leaves. -/
structure Passage (World : Type) where
  found : World
  stop : Stop
  left : World

/-- Two machines pass through the same world with the same answer and the same calls. -/
structure Passage.Agrees {World : Type} (length : Nat) (short long : Passage World) : Prop where
  found : long.found = short.found
  left : long.left = short.left
  outcome : long.stop.outcome = short.stop.outcome
  calls : long.stop.calls = short.stop.calls
  after : short.stop.after.Pads length long.stop.after

namespace Wiring

variable {World : Type} {wiring : Wiring World} {short long machine other : Machine}
  {passages padded : List (Passage World)} {program : Program} {length count : Nat}

def Passes (wiring : Wiring World) (before : Machine) (passage : Passage World)
    (after : Machine) : Prop :=
  passage.stop.after = after ∧ wiring.Resumes before passage.found passage.stop passage.left

theorem passes_of_resume {before after : Machine} {left : World} {outcome : Outcome}
    {calls : List Call} (fuel : Nat) (world : World)
    (resumed : (before.resume wiring.recorded.ports fuel).run (world, []) =
      (some (after, outcome), left, calls)) :
    wiring.Passes before ⟨world, ⟨outcome, calls, after⟩, left⟩ after :=
  ⟨rfl, resumes_of_resume fuel resumed⟩

theorem resume_pads (pads : short.Pads length long) (fuel : Nat) (world : World) :
    ((long.resume wiring.recorded.ports fuel).run (world, [])).2 =
        ((short.resume wiring.recorded.ports fuel).run (world, [])).2 ∧
      Machine.Matches length ((short.resume wiring.recorded.ports fuel).run (world, [])).1
        ((long.resume wiring.recorded.ports fuel).run (world, [])).1 := by
  cases phase : short.phase with
  | running =>
      rw [resume_running phase, resume_running (pads.phase.trans phase)]
      exact ⟨rfl, Machine.advance_pads pads fuel⟩
  | reading instruction =>
      cases connected : wiring.source with
      | none =>
          rw [resume_unfed phase connected, resume_unfed (pads.phase.trans phase) connected]
          exact ⟨rfl, Machine.receive_pads pads instruction _⟩
      | some take =>
          rw [resume_fed phase connected, resume_fed (pads.phase.trans phase) connected]
          exact ⟨rfl, Machine.receive_pads pads instruction _⟩
  | writing word =>
      have running : Machine.Pads length { short with phase := .running }
          { long with phase := .running } := ⟨pads.memory, pads.pointer, pads.base, rfl⟩
      cases connected : wiring.sink with
      | none =>
          rw [resume_dropped phase connected, resume_dropped (pads.phase.trans phase) connected]
          exact ⟨rfl, .stop running⟩
      | some give =>
          rw [resume_wrote phase connected, resume_wrote (pads.phase.trans phase) connected]
          exact ⟨rfl, .stop running⟩
  | halted =>
      rw [resume_halted phase, resume_halted (pads.phase.trans phase)]
      exact ⟨rfl, .stop pads⟩
  | faulted fault =>
      rw [resume_faulted phase, resume_faulted (pads.phase.trans phase)]
      exact ⟨rfl, .stop pads⟩

theorem Resumes.pad {world left : World} {stop : Stop} (pads : short.Pads length long)
    (resumed : wiring.Resumes short world stop left)
    (within : stop.outcome.endsProgram = false) :
    ∃ stop', wiring.Resumes long world stop' left ∧
      Passage.Agrees length ⟨world, stop, left⟩ ⟨world, stop', left⟩ := by
  obtain ⟨fuel, resumed⟩ := resumed
  obtain ⟨same, matched⟩ := resume_pads pads fuel world
  cases again : (long.resume wiring.recorded.ports fuel).run (world, []) with
  | mk answer rest =>
      rw [resumed, again] at same matched
      cases same
      cases matched with
      | @stop _ after _ pads =>
          exact ⟨⟨stop.outcome, stop.calls, after⟩, ⟨fuel, again⟩, rfl, rfl, rfl, rfl, pads⟩
      | ended ends =>
          rw [ends] at within
          cases within

theorem Resumes.strip {world left : World} {stop : Stop} (pads : short.Pads length long)
    (resumed : wiring.Resumes long world stop left) :
    ∃ stop' left', wiring.Resumes short world stop' left' ∧
      (stop'.outcome.endsProgram = false →
        Passage.Agrees length ⟨world, stop', left'⟩ ⟨world, stop, left⟩) := by
  obtain ⟨fuel, resumed⟩ := resumed
  obtain ⟨same, matched⟩ := resume_pads pads fuel world
  cases again : (short.resume wiring.recorded.ports fuel).run (world, []) with
  | mk answer rest =>
      rw [resumed, again] at same matched
      cases same
      cases matched with
      | @stop after _ _ pads =>
          exact ⟨⟨stop.outcome, stop.calls, after⟩, left, ⟨fuel, again⟩, fun _ =>
            ⟨rfl, rfl, rfl, rfl, pads⟩⟩
      | @ended after outcome ends =>
          refine ⟨⟨outcome, stop.calls, after⟩, left, ⟨fuel, again⟩, fun within => ?_⟩
          rw [ends] at within
          cases within

theorem agrees_concat {passage other : Passage World}
    (agree : List.Forall₂ (Passage.Agrees length) passages padded)
    (agrees : passage.Agrees length other) :
    List.Forall₂ (Passage.Agrees length) (passages ++ [passage]) (padded ++ [other]) :=
  List.rel_append agree (.cons agrees .nil)

/-- Without an instruction that comes to the end of the program, a run of it is a run of the
padded program. -/
theorem reaches_padded (reached : Reaches wiring.Passes (.ofProgram program) passages machine)
    (within : ∀ passage ∈ passages, passage.stop.outcome.endsProgram = false) :
    ∃ padded other, Reaches wiring.Passes (.ofProgram (program.padded count)) padded other ∧
      List.Forall₂ (Passage.Agrees (program.size + count)) passages padded ∧
      machine.Pads (program.size + count) other := by
  induction reached with
  | start => exact ⟨[], _, .start, .nil, .start program count⟩
  | @move passages before _ passage _ passed ih =>
      obtain ⟨rfl, resumed⟩ := passed
      obtain ⟨padded, other, reached, agree, pads⟩ := ih fun earlier member =>
        within earlier (List.mem_append_left _ member)
      obtain ⟨stop, again, agrees⟩ := resumed.pad pads (within passage (by simp))
      have moved : wiring.Passes other ⟨passage.found, stop, passage.left⟩ stop.after :=
        ⟨rfl, again⟩
      exact ⟨_, _, reached.move moved, agrees_concat agree agrees, agrees.after⟩

/-- A run of the padded program is a run of the program until that one comes to its end. -/
theorem reaches_shortened
    (reached : Reaches wiring.Passes (.ofProgram (program.padded count)) padded other) :
    ∃ passages machine shared rest, padded = shared ++ rest ∧
      Reaches wiring.Passes (.ofProgram program) passages machine ∧
      List.Forall₂ (Passage.Agrees (program.size + count)) passages shared ∧
      (rest = [] ∧ machine.Pads (program.size + count) other ∨
        ∃ next later stop left, rest = next :: later ∧
          wiring.Resumes machine next.found stop left ∧ stop.outcome.endsProgram = true) := by
  induction reached with
  | start => exact ⟨[], _, [], [], rfl, .start, .nil, .inl ⟨rfl, .start program count⟩⟩
  | @move padded other _ passage _ passed ih =>
      obtain ⟨rfl, resumed⟩ := passed
      obtain ⟨passages, machine, shared, rest, rfl, reached, agree, ⟨rfl, pads⟩ | ended⟩ := ih
      · obtain ⟨stop, left, again, agrees⟩ := resumed.strip pads
        cases ends : stop.outcome.endsProgram with
        | true =>
            refine ⟨passages, machine, shared, [passage], ?_, reached, agree,
              .inr ⟨passage, [], stop, left, rfl, again, ends⟩⟩
            rw [List.append_nil]
        | false =>
            have moved : wiring.Passes machine ⟨passage.found, stop, left⟩ stop.after :=
              ⟨rfl, again⟩
            refine ⟨_, _, shared ++ [passage], [], ?_, reached.move moved,
              agrees_concat agree (agrees ends), .inl ⟨rfl, (agrees ends).after⟩⟩
            rw [List.append_nil, List.append_nil]
      · obtain ⟨next, later, stop, left, rfl, again, ends⟩ := ended
        refine ⟨passages, machine, shared, next :: later ++ [passage], ?_, reached, agree,
          .inr ⟨next, later ++ [passage], stop, left, rfl, again, ends⟩⟩
        rw [List.append_assoc]

/-- As long as no instruction comes to the end of the program, zeros behind it change no answer,
no call, no cell that is read, nor the pointer or the base; memory reaches as far as the one of
the program does, and at least as far as the zeros. And the padded program does nothing that the
program does not do, up to such an instruction. -/
theorem dense_cells_are_invisible (wiring : Wiring World) (program : Program) (count : Nat) :
    (∀ passages machine, Reaches wiring.Passes (.ofProgram program) passages machine →
      (∀ passage ∈ passages, passage.stop.outcome.endsProgram = false) →
      ∃ padded other, Reaches wiring.Passes (.ofProgram (program.padded count)) padded other ∧
        List.Forall₂ (Passage.Agrees (program.size + count)) passages padded) ∧
    ∀ padded other, Reaches wiring.Passes (.ofProgram (program.padded count)) padded other →
      ∃ passages machine shared rest, padded = shared ++ rest ∧
        Reaches wiring.Passes (.ofProgram program) passages machine ∧
        List.Forall₂ (Passage.Agrees (program.size + count)) passages shared ∧
        (rest = [] ∨ ∃ next later stop left, rest = next :: later ∧
          wiring.Resumes machine next.found stop left ∧ stop.outcome.endsProgram = true) := by
  constructor
  · intro passages machine reached within
    obtain ⟨padded, other, again, agree, _⟩ := reaches_padded reached within
    exact ⟨padded, other, again, agree⟩
  · intro padded other reached
    obtain ⟨passages, machine, shared, rest, split, again, agree, ended⟩ :=
      reaches_shortened reached
    exact ⟨passages, machine, shared, rest, split, again, agree, ended.imp_left And.left⟩

/-- Cell 9 is dense with a zero behind the program and sparse without it, cell 10 is sparse in
both. -/
theorem echo_of_successor_is_padded :
    ∃ passages machine padded other,
      Reaches collecting.Passes (.ofProgram ⟨[3, 9, 1001, 9, 1, 10, 4, 10, 99]⟩) passages machine ∧
      passages.map (fun passage => passage.stop.outcome) =
        [.ok .aboutToInput, .ok .afterInput, .ok .aboutToOutput, .ok .afterOutput, .ok .halted] ∧
      passages.flatMap (fun passage => passage.stop.writes) = [8] ∧
      machine.memory.get 9 = 7 ∧ machine.memory.get 10 = 8 ∧
      Reaches collecting.Passes (.ofProgram ⟨[3, 9, 1001, 9, 1, 10, 4, 10, 99, 0]⟩) padded other ∧
      List.Forall₂ (Passage.Agrees 10) passages padded := by
  have started : Reaches collecting.Passes
      (.ofProgram ⟨[3, 9, 1001, 9, 1, 10, 4, 10, 99]⟩) [] _ := .start
  have reached := ((((started.move (passes_of_resume 1 ([7], []) rfl)).move
    (passes_of_resume 0 ([7], []) rfl)).move (passes_of_resume 2 ([], []) rfl)).move
    (passes_of_resume 0 ([], []) rfl)).move (passes_of_resume 1 ([], [8]) rfl)
  obtain ⟨padded, other, again, agree⟩ :=
    (dense_cells_are_invisible collecting _ 1).1 _ _ reached (by simp [Outcome.endsProgram])
  exact ⟨_, _, padded, other, reached, rfl, rfl, rfl, rfl, again, agree⟩

end Wiring

end Intcode
