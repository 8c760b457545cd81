import Intcode.Proofs.Results

namespace Intcode

variable {α β σ ε : Type}

/-- The error at the first element of a row that is faulty. What stands in front of an element may
count for whether it is. -/
def FirstFault (faulty : List α → α → ε → Prop) (rows : List α) (error : ε) : Prop :=
  ∃ before row after, rows = before ++ row :: after ∧ faulty before row error ∧
    ∀ front earlier between, before = front ++ earlier :: between →
      ∀ other, ¬ faulty front earlier other

variable {faulty : List α → α → ε → Prop} {row : α} {rows rest : List α} {error : ε}

theorem not_firstFault_nil : ¬ FirstFault faulty [] error := by
  rintro ⟨before, row, after, split, _⟩
  cases before <;> cases split

theorem firstFault_cons :
    FirstFault faulty (row :: rest) error ↔
      faulty [] row error ∨
        (∀ other, ¬ faulty [] row other) ∧
          FirstFault (fun before => faulty (row :: before)) rest error := by
  constructor
  · rintro ⟨before, first, after, split, fault, sound⟩
    cases before with
    | nil =>
        cases split
        exact .inl fault
    | cons head front =>
        cases split
        refine .inr ⟨sound [] row front rfl, front, first, after, rfl, fault, ?_⟩
        intro start earlier between inside
        exact sound (row :: start) earlier between (by rw [inside, List.cons_append])
  · rintro (fault | ⟨soundHere, before, first, after, rfl, fault, sound⟩)
    · exact ⟨[], row, rest, rfl, fault, by simp⟩
    · refine ⟨row :: before, first, after, rfl, fault, ?_⟩
      intro front earlier between inside
      cases front with
      | nil =>
          cases inside
          exact soundHere
      | cons head start =>
          cases inside
          exact sound start earlier between rfl

theorem firstFault_cons_of_faulty {faulty : α → ε → Prop} {fault : ε} (faultHere : faulty row fault)
    (unique : ∀ other, faulty row other → other = fault) :
    FirstFault (fun _ => faulty) (row :: rest) error ↔ error = fault := by
  rw [firstFault_cons]
  constructor
  · rintro (here | ⟨sound, _⟩)
    · exact unique error here
    · exact absurd faultHere (sound fault)
  · rintro rfl
    exact .inl faultHere

theorem firstFault_cons_of_sound {faulty : α → ε → Prop} (sound : ∀ other, ¬ faulty row other) :
    FirstFault (fun _ => faulty) (row :: rest) error ↔ FirstFault (fun _ => faulty) rest error := by
  rw [firstFault_cons]
  exact ⟨fun found => found.elim (fun here => absurd here (sound error)) And.right,
    fun later => .inr ⟨sound, later⟩⟩

theorem firstFault_append_of_sound {faulty : α → ε → Prop} {before : List α}
    (sound : ∀ row ∈ before, ∀ other, ¬ faulty row other) :
    FirstFault (fun _ => faulty) (before ++ rows) error ↔ FirstFault (fun _ => faulty) rows error := by
  induction before with
  | nil => rfl
  | cons row before ih =>
      obtain ⟨soundHere, soundRest⟩ := List.forall_mem_cons.mp sound
      rw [List.cons_append, firstFault_cons_of_sound soundHere, ih soundRest]

theorem exists_firstFault_iff :
    (∃ error, FirstFault faulty rows error) ↔
      ∃ before row after error, rows = before ++ row :: after ∧ faulty before row error := by
  constructor
  · rintro ⟨error, before, row, after, split, fault, _⟩
    exact ⟨before, row, after, error, split, fault⟩
  · rintro ⟨before, row, after, error, rfl, fault⟩
    induction before generalizing faulty with
    | nil => exact ⟨error, firstFault_cons.mpr (.inl fault)⟩
    | cons head front ih =>
        by_cases here : ∃ other, faulty [] head other
        · obtain ⟨other, faultHere⟩ := here
          exact ⟨other, firstFault_cons.mpr (.inl faultHere)⟩
        · have behind : ∃ later, FirstFault (fun more => faulty (head :: more))
              (front ++ row :: after) later := ih fault
          obtain ⟨later, first⟩ := behind
          exact ⟨later, firstFault_cons.mpr (.inr ⟨not_exists.mp here, first⟩)⟩

theorem exists_firstFault_iff_mem {faulty : α → ε → Prop} :
    (∃ error, FirstFault (fun _ => faulty) rows error) ↔
      ∃ row ∈ rows, ∃ error, faulty row error := by
  rw [exists_firstFault_iff]
  constructor
  · rintro ⟨before, row, after, error, rfl, fault⟩
    exact ⟨row, by simp, error, fault⟩
  · rintro ⟨row, member, error, fault⟩
    obtain ⟨before, after, split⟩ := List.append_of_mem member
    exact ⟨before, row, after, error, split, fault⟩

theorem mapM_eq_error_iff {rule : α → Except ε β} :
    rows.mapM rule = .error error ↔
      FirstFault (fun _ row error => rule row = .error error) rows error := by
  induction rows with
  | nil => exact iff_of_false (by rintro ⟨⟩) not_firstFault_nil
  | cons row rest ih =>
      rw [List.mapM_cons, firstFault_cons]
      cases first : rule row with
      | error other => simp [bind, Except.bind]
      | ok result =>
          rw [← ih]
          cases rest.mapM rule <;> simp [bind, Except.bind, pure, Except.pure]

/-- What is wrong with an element may depend on the state that the elements in front of it have led
to, as long as they tell that state. -/
theorem foldlM_eq_error_iff {step : σ → α → Except ε σ} {Tells : List α → σ → Prop}
    (fails : ∀ before state row error, Tells before state →
      (step state row = .error error ↔ faulty before row error))
    (keeps : ∀ before state row after, Tells before state → step state row = .ok after →
      Tells (before ++ [row]) after)
    {before : List α} {state : σ} (tells : Tells before state) :
    rows.foldlM step state = .error error ↔
      FirstFault (fun more => faulty (before ++ more)) rows error := by
  induction rows generalizing before state with
  | nil => exact iff_of_false (by rintro ⟨⟩) not_firstFault_nil
  | cons row rest ih =>
      rw [List.foldlM_cons, firstFault_cons]
      simp only [List.append_nil, ← fails before state row _ tells]
      cases first : step state row with
      | error other => simp [bind, Except.bind]
      | ok after =>
          have later := ih (keeps before state row after tells first)
          simp only [List.append_assoc, List.singleton_append] at later
          simpa [bind, Except.bind] using later

end Intcode
