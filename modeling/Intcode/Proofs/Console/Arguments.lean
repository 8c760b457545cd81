import Intcode.Console.Options
import Intcode.Proofs.Results

namespace Intcode.Console

namespace Draft

/-- The draft with assembly asked for. -/
def assembled (draft : Draft) : Draft :=
  { draft with settings := { draft.settings with assembly := true } }

variable {draft after : Draft} {awaiting next : Option Setting}

theorem raise_assembled {flag : Flag} (raised : draft.raise flag = .ok after)
    (without : after.settings.assembly = false) :
    draft.settings.assembly = false ∧ draft.assembled.raise flag = .ok after.assembled := by
  cases flag with
  | assembly =>
      simp only [raise] at raised
      split at raised
      · cases raised
      · cases raised
        cases without
  | noExec | stdin | chain | dumpMemory =>
      simp only [raise] at raised
      split at raised <;> rename_i given
      · cases raised
      · cases raised
        exact ⟨without, if_neg given⟩
  | verbose =>
      cases raised
      exact ⟨without, rfl⟩
  | help | version => cases raised

theorem put_assembled {setting : Setting} {value : String} (put : draft.put setting value = .ok after)
    (without : after.settings.assembly = false) :
    draft.settings.assembly = false ∧ draft.assembled.put setting value = .ok after.assembled := by
  cases setting with
  | output =>
      simp only [Draft.put] at put
      split at put <;> rename_i given
      · cases put
      · cases put
        exact ⟨without, if_neg given⟩
  | input | phases =>
      obtain ⟨words, read, same⟩ := bind_eq_ok put
      cases same
      refine ⟨without, ?_⟩
      simp only [Draft.put, read]
      rfl

theorem place_assembled {argument : String} (placed : draft.place argument = .ok after)
    (without : after.settings.assembly = false) :
    draft.settings.assembly = false ∧ draft.assembled.place argument = .ok after.assembled := by
  simp only [place] at placed
  split at placed <;> rename_i given
  · cases placed
  · cases placed
    exact ⟨without, if_neg given⟩

theorem readShort_assembled {text : List Char} (read : draft.readShort text = .ok (after, next))
    (without : after.settings.assembly = false) :
    draft.settings.assembly = false ∧
      draft.assembled.readShort text = .ok (after.assembled, next) := by
  induction text generalizing draft with
  | nil =>
      cases read
      exact ⟨without, rfl⟩
  | cons name rest ih =>
      unfold readShort at read ⊢
      split at read
      · cases read
      · obtain ⟨middle, raised, later⟩ := bind_eq_ok read
        obtain ⟨before, again⟩ := ih later
        obtain ⟨first, raisedAgain⟩ := raise_assembled raised before
        refine ⟨first, ?_⟩
        simp only [raisedAgain]
        exact again
      · cases read
        refine ⟨without, ?_⟩
        simp only
      · obtain ⟨middle, put, same⟩ := bind_eq_ok read
        cases same
        obtain ⟨first, putAgain⟩ := put_assembled put without
        refine ⟨first, ?_⟩
        simp only [putAgain]
        rfl
      · obtain ⟨middle, put, same⟩ := bind_eq_ok read
        cases same
        obtain ⟨first, putAgain⟩ := put_assembled put without
        refine ⟨first, ?_⟩
        simp only [putAgain]
        rfl

theorem readLong_assembled {text : List Char} (read : draft.readLong text = .ok (after, next))
    (without : after.settings.assembly = false) :
    draft.settings.assembly = false ∧
      draft.assembled.readLong text = .ok (after.assembled, next) := by
  unfold readLong at read ⊢
  dsimp only at read ⊢
  split at read
  · cases read
  · obtain ⟨middle, raised, same⟩ := bind_eq_ok read
    cases same
    obtain ⟨first, raisedAgain⟩ := raise_assembled raised without
    refine ⟨first, ?_⟩
    simp only [raisedAgain]
    rfl
  · cases read
  · cases read
    refine ⟨without, ?_⟩
    simp only
  · obtain ⟨middle, put, same⟩ := bind_eq_ok read
    cases same
    obtain ⟨first, putAgain⟩ := put_assembled put without
    refine ⟨first, ?_⟩
    simp only [putAgain]
    rfl

theorem readFiles_assembled {arguments : List String} (read : draft.readFiles arguments = .ok after)
    (without : after.settings.assembly = false) :
    draft.settings.assembly = false ∧ draft.assembled.readFiles arguments = .ok after.assembled := by
  induction arguments generalizing draft with
  | nil =>
      cases read
      exact ⟨without, rfl⟩
  | cons argument rest ih =>
      obtain ⟨middle, placed, later⟩ := bind_eq_ok read
      obtain ⟨before, again⟩ := ih later
      obtain ⟨first, placedAgain⟩ := place_assembled placed before
      refine ⟨first, ?_⟩
      rw [readFiles, List.foldlM_cons, placedAgain]
      exact again

theorem readArguments_assembled {arguments : List String}
    (read : draft.readArguments awaiting arguments = .ok after)
    (without : after.settings.assembly = false) :
    draft.settings.assembly = false ∧
      draft.assembled.readArguments awaiting arguments = .ok after.assembled := by
  induction arguments generalizing draft awaiting with
  | nil =>
      cases awaiting with
      | none =>
          cases read
          exact ⟨without, rfl⟩
      | some setting => cases read
  | cons argument rest ih =>
      unfold readArguments at read ⊢
      cases awaiting with
      | some setting =>
          dsimp only at read ⊢
          split at read <;> rename_i dashed
          · cases read
          · obtain ⟨middle, put, later⟩ := bind_eq_ok read
            obtain ⟨before, again⟩ := ih later
            obtain ⟨first, putAgain⟩ := put_assembled put before
            refine ⟨first, ?_⟩
            rw [if_neg dashed, putAgain]
            exact again
      | none =>
          dsimp only at read ⊢
          split at read
          · obtain ⟨first, again⟩ := readFiles_assembled read without
            refine ⟨first, ?_⟩
            simp only [again]
          · obtain ⟨⟨middle, awaiting⟩, readLong, later⟩ := bind_eq_ok read
            obtain ⟨before, again⟩ := ih later
            obtain ⟨first, readAgain⟩ := readLong_assembled readLong before
            refine ⟨first, ?_⟩
            simp only [readAgain]
            exact again
          · obtain ⟨⟨middle, awaiting⟩, readShort, later⟩ := bind_eq_ok read
            obtain ⟨before, again⟩ := ih later
            obtain ⟨first, readAgain⟩ := readShort_assembled readShort before
            refine ⟨first, ?_⟩
            simp only [readAgain]
            exact again
          · obtain ⟨middle, placed, later⟩ := bind_eq_ok read
            obtain ⟨before, again⟩ := ih later
            obtain ⟨first, placedAgain⟩ := place_assembled placed before
            refine ⟨first, ?_⟩
            rw [placedAgain]
            exact again

theorem finish_assembled {options : Options} (finished : draft.finish = .ok options) :
    draft.settings.assembly = options.assembly ∧
      draft.assembled.finish = .ok { options with assembly := true } := by
  unfold finish at finished ⊢
  split at finished <;> rename_i named
  · cases finished
  · dsimp only at finished
    split at finished <;> rename_i excluded
    · cases finished
    split at finished <;> rename_i phaseless
    · cases finished
    · cases finished
      refine ⟨rfl, ?_⟩
      simp only [assembled, named]
      rw [if_neg excluded, if_neg phaseless]

end Draft

/-- With `-a` in front, arguments that do not ask for assembly mean what they mean without it. -/
theorem Options.ofArguments_assembly {arguments : List String} {options : Options}
    (read : ofArguments arguments = .ok options) (without : options.assembly = false) :
    ofArguments ("-a" :: arguments) = .ok { options with assembly := true } := by
  obtain ⟨draft, readAll, finished⟩ := bind_eq_ok read
  obtain ⟨same, finishedAgain⟩ := Draft.finish_assembled finished
  obtain ⟨_, readAgain⟩ := Draft.readArguments_assembled readAll (same.trans without)
  have first : ({} : Draft).readArguments none ("-a" :: arguments) =
      ({} : Draft).assembled.readArguments none arguments := rfl
  rw [ofArguments, first, readAgain]
  exact finishedAgain

end Intcode.Console
