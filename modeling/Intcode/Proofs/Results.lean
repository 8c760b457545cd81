import Mathlib.Data.List.Forall2

namespace Intcode

variable {α β γ δ ε : Type}

section One

variable {result : Except ε α} {value : α} {error : ε}

theorem eq_ok_of_toOption (succeeded : result.toOption = some value) : result = .ok value := by
  cases result <;> cases succeeded
  rfl

theorem bind_eq_ok {next : α → Except ε β} {after : β} (done : (result >>= next) = .ok after) :
    ∃ middle, result = .ok middle ∧ next middle = .ok after := by
  cases result with
  | error error => cases done
  | ok middle => exact ⟨middle, rfl, done⟩

theorem map_eq_ok {rule : α → β} {after : β} (mapped : result.map rule = .ok after) :
    ∃ before, result = .ok before ∧ rule before = after := by
  cases result with
  | error error => cases mapped
  | ok before =>
      cases mapped
      exact ⟨before, rfl, rfl⟩

theorem map_eq_error_iff {rule : α → β} : result.map rule = .error error ↔ result = .error error := by
  cases result <;> simp [Except.map]

theorem mapError_eq_ok {blame : ε → δ} (mapped : result.mapError blame = .ok value) :
    result = .ok value := by
  cases result with
  | error error => cases mapped
  | ok before =>
      cases mapped
      rfl

theorem map_mapError (rule : α → β) (blame : ε → δ) (result : Except ε α) :
    (result.mapError blame).map rule = (result.map rule).mapError blame := by
  cases result <;> rfl

end One

section Row

variable {rows : List α} {results : List β} {rule : α → Except ε β}

/-- Work on a row succeeds element by element. -/
theorem mapM_eq_ok_iff :
    rows.mapM rule = .ok results ↔
      List.Forall₂ (fun row result => rule row = .ok result) rows results := by
  induction rows generalizing results with
  | nil =>
      rw [List.mapM_nil, List.forall₂_nil_left_iff]
      exact ⟨fun read => (Except.ok.inj read).symm, fun none => congrArg Except.ok none.symm⟩
  | cons row rest ih =>
      rw [List.mapM_cons]
      constructor
      · intro read
        obtain ⟨result, first, read⟩ := bind_eq_ok read
        obtain ⟨further, readRest, same⟩ := bind_eq_ok read
        cases same
        exact .cons first (ih.mp readRest)
      · intro each
        cases each with
        | cons first later =>
            rw [first, ih.mpr later]
            rfl

theorem mapM_id_eq_ok_iff {items : List (Except ε α)} {values : List α} :
    items.mapM id = .ok values ↔ items = values.map .ok := by
  rw [mapM_eq_ok_iff, ← List.forall₂_eq_eq_eq, List.forall₂_map_right_iff]
  rfl

/-- Work that passes every element it succeeds with computes one function on the whole row. -/
theorem mapM_eq_map {passes : α → Prop} {change : α → β}
    (sound : ∀ {row result}, rule row = .ok result → passes row ∧ result = change row)
    (read : rows.mapM rule = .ok results) :
    (∀ row ∈ rows, passes row) ∧ results = rows.map change := by
  have each := (mapM_eq_ok_iff.mp read).imp fun _ _ => sound
  obtain ⟨pass, same⟩ := (List.forall₂_and_left rows results).mp each
  have equal : List.Forall₂ Eq (rows.map change) results :=
    List.forall₂_map_left_iff.mpr (same.imp fun _ _ => Eq.symm)
  rw [List.forall₂_eq_eq_eq] at equal
  exact ⟨pass, equal.symm⟩

/-- Work on a changed row that answers as before, but for the wording of errors. -/
theorem mapM_map_mapError {other : γ → Except δ β} {turn : α → γ} {blame : ε → δ}
    (same : ∀ row, other (turn row) = (rule row).mapError blame) (rows : List α) :
    (rows.map turn).mapM other = (rows.mapM rule).mapError blame := by
  induction rows with
  | nil => rfl
  | cons row rest ih =>
      rw [List.map_cons, List.mapM_cons, List.mapM_cons, same, ih]
      cases rule row with
      | error error => rfl
      | ok result => cases rest.mapM rule <;> rfl

theorem mapM_id_mapError (blame : ε → δ) (items : List (Except ε α)) :
    (items.map (Except.mapError blame)).mapM id = (items.mapM id).mapError blame := by
  have same (item : Except ε α) : id (item.mapError blame) = (id item).mapError blame := rfl
  exact mapM_map_mapError same items

end Row

end Intcode
