namespace Intcode

variable {State Report Other OtherReport : Type}

/-- Steps up to and including the first one that has something to report. -/
inductive Settles (step : State → State × Option Report) : State → Report → State → Prop
  | report {before after : State} {report : Report} (stepped : step before = (after, some report)) :
      Settles step before report after
  | silent {before middle after : State} {report : Report} (stepped : step before = (middle, none))
      (settled : Settles step middle report after) : Settles step before report after

/-- Moves in a row with what each of them reports, the last one at the end. -/
inductive Reaches (moves : State → Report → State → Prop) (start : State) :
    List Report → State → Prop
  | start : Reaches moves start [] start
  | move {reports : List Report} {before after : State} {report : Report}
      (reached : Reaches moves start reports before) (moved : moves before report after) :
      Reaches moves start (reports ++ [report]) after

theorem Reaches.cons {moves : State → Report → State → Prop} {start middle final : State}
    {report : Report} {reports : List Report} (moved : moves start report middle)
    (reached : Reaches moves middle reports final) :
    Reaches moves start (report :: reports) final := by
  induction reached with
  | start => exact Reaches.start.move moved
  | move _ last ih => exact ih.move last

theorem Reaches.trans {moves : State → Report → State → Prop} {start middle final : State}
    {reports more : List Report} (first : Reaches moves start reports middle)
    (later : Reaches moves middle more final) : Reaches moves start (reports ++ more) final := by
  induction later with
  | start => rwa [List.append_nil]
  | move _ last ih =>
      rw [← List.append_assoc]
      exact ih.move last

theorem Reaches.eq_start {moves : State → Report → State → Prop} {start final : State}
    (reached : Reaches moves start [] final) : final = start := by
  generalize none : [] = reports at reached
  cases reached with
  | start => rfl
  | move => simp at none

/-- A row of moves begins with its first one. -/
theorem Reaches.uncons {moves : State → Report → State → Prop} {start final : State}
    {report : Report} {reports : List Report}
    (reached : Reaches moves start (report :: reports) final) :
    ∃ middle, moves start report middle ∧ Reaches moves middle reports final := by
  generalize row : report :: reports = all at reached
  induction reached generalizing reports with
  | start => cases row
  | @move front before after last reached moved ih =>
      cases front with
      | nil =>
          cases row
          obtain rfl := reached.eq_start
          exact ⟨after, moved, .start⟩
      | cons first front =>
          cases row
          obtain ⟨middle, first, later⟩ := ih rfl
          exact ⟨middle, first, later.move moved⟩

/-- A row of moves passes through a state between any two parts of its reports. -/
theorem Reaches.of_append {moves : State → Report → State → Prop} {start final : State}
    {reports more : List Report} (reached : Reaches moves start (reports ++ more) final) :
    ∃ middle, Reaches moves start reports middle ∧ Reaches moves middle more final := by
  induction reports generalizing start with
  | nil => exact ⟨start, .start, reached⟩
  | cons report reports ih =>
      obtain ⟨next, moved, later⟩ := reached.uncons
      obtain ⟨middle, front, rest⟩ := ih later
      exact ⟨middle, .cons moved front, rest⟩

/-- A row of moves passes through a state before each of its reports. -/
theorem Reaches.split {moves : State → Report → State → Prop} {start final : State}
    {before rest : List Report} {report : Report}
    (reached : Reaches moves start (before ++ report :: rest) final) :
    ∃ middle next, Reaches moves start before middle ∧ moves middle report next := by
  obtain ⟨middle, front, later⟩ := reached.of_append
  obtain ⟨next, moved, _⟩ := later.uncons
  exact ⟨middle, next, front, moved⟩

/-- Where a state has one move only, of two rows of moves one is the beginning of the other. -/
theorem Reaches.prefix_or_prefix {moves : State → Report → State → Prop} {start final other : State}
    {reports more : List Report}
    (unique : ∀ {before after next report again}, moves before report after →
      moves before again next → again = report ∧ next = after)
    (reached : Reaches moves start reports final) (again : Reaches moves start more other) :
    reports <+: more ∨ more <+: reports := by
  induction reports generalizing start more with
  | nil => exact .inl List.nil_prefix
  | cons report reports ih =>
      cases more with
      | nil => exact .inr List.nil_prefix
      | cons first more =>
          obtain ⟨middle, moved, later⟩ := reached.uncons
          obtain ⟨next, movedAgain, laterAgain⟩ := again.uncons
          obtain ⟨rfl, rfl⟩ := unique moved movedAgain
          exact (ih later laterAgain).imp (List.prefix_cons_inj _).mpr (List.prefix_cons_inj _).mpr

theorem Settles.silent_iff {step : State → State × Option Report} {before middle after : State}
    {report : Report} (stepped : step before = (middle, none)) :
    Settles step before report after ↔ Settles step middle report after := by
  constructor
  · intro settled
    cases settled with
    | report steppedAgain =>
        rw [stepped] at steppedAgain
        cases steppedAgain
    | silent steppedAgain settled =>
        rw [stepped] at steppedAgain
        cases steppedAgain
        exact settled
  · exact .silent stepped

theorem Settles.unique {step : State → State × Option Report} {before after final : State}
    {report other : Report} (settled : Settles step before report after)
    (again : Settles step before other final) : other = report ∧ final = after := by
  induction settled with
  | report stepped =>
      cases again with
      | report steppedAgain =>
          rw [stepped] at steppedAgain
          cases steppedAgain
          exact ⟨rfl, rfl⟩
      | silent steppedAgain settledAgain =>
          rw [stepped] at steppedAgain
          cases steppedAgain
  | silent stepped settled ih =>
      cases again with
      | report steppedAgain =>
          rw [stepped] at steppedAgain
          cases steppedAgain
      | silent steppedAgain settledAgain =>
          rw [stepped] at steppedAgain
          cases steppedAgain
          exact ih settledAgain

/-- On related states two step functions are silent together, and then in related states
again, or both have something to report. -/
def InStep (step : State → State × Option Report) (follow : Other → Other × Option OtherReport)
    (related : State → Other → Prop) : Prop :=
  ∀ before other, related before other →
    (∃ after otherAfter, step before = (after, none) ∧ follow other = (otherAfter, none) ∧
      related after otherAfter) ∨
    ((step before).2.isSome ∧ (follow other).2.isSome)

theorem InStep.symm {step : State → State × Option Report}
    {follow : Other → Other × Option OtherReport} {related : State → Other → Prop}
    (inStep : InStep step follow related) :
    InStep follow step fun other before => related before other := by
  intro other before joined
  rcases inStep before other joined with ⟨after, otherAfter, stepped, followed, again⟩ | ⟨left, right⟩
  · exact .inl ⟨otherAfter, after, followed, stepped, again⟩
  · exact .inr ⟨right, left⟩

/-- Up to the step that reports, step functions in step stay in related states, from which on
they settle as from the first ones. -/
theorem InStep.last_step {step : State → State × Option Report}
    {follow : Other → Other × Option OtherReport} {related : State → Other → Prop}
    (inStep : InStep step follow related) {before after : State} {other : Other} {report : Report}
    (joined : related before other) (settled : Settles step before report after) :
    ∃ last otherLast, related last otherLast ∧ step last = (after, some report) ∧
      ∀ otherReport otherAfter, Settles follow otherLast otherReport otherAfter →
        Settles follow other otherReport otherAfter := by
  induction settled generalizing other with
  | @report before after report stepped =>
      exact ⟨before, other, joined, stepped, fun _ _ settled => settled⟩
  | silent stepped settled ih =>
      rcases inStep _ _ joined with ⟨_, otherMiddle, again, followed, joined⟩ | ⟨reports, _⟩
      · rw [stepped] at again
        cases again
        obtain ⟨last, otherLast, joined, reported, onward⟩ := ih joined
        exact ⟨last, otherLast, joined, reported, fun _ _ settled =>
          .silent followed (onward _ _ settled)⟩
      · rw [stepped] at reports
        cases reports

end Intcode
