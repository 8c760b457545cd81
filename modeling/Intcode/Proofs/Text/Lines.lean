import Intcode.Text.Lines

namespace Intcode.Text

/-- A line of a text, with its number from one on. -/
def LineAt (text : List Char) (number : Nat) (fragment : List Char) : Prop :=
  ∃ index, number = index + 1 ∧ (lines text)[index]? = some fragment

variable {line rest fragment : List Char} {number : Nat}

@[elab_as_elim]
theorem line_induction {motive : List Char → Prop}
    (unended : ∀ line, '\n' ∉ line → motive line)
    (ended : ∀ line rest, '\n' ∉ line → motive rest → motive (line ++ '\n' :: rest))
    (text : List Char) : motive text := by
  have general (text front : List Char) (whole : '\n' ∉ front) : motive (front ++ text) := by
    induction text generalizing front with
    | nil =>
        rw [List.append_nil]
        exact unended front whole
    | cons char rest ih =>
        by_cases feed : char = '\n'
        · subst feed
          exact ended front rest whole (ih [] List.not_mem_nil)
        · have longer : '\n' ∉ front ++ [char] := by
            simpa [not_or] using ⟨whole, Ne.symm feed⟩
          rw [List.append_cons]
          exact ih (front ++ [char]) longer
  exact general text [] List.not_mem_nil

theorem beq_newline_of_notMem (whole : '\n' ∉ line) : ∀ char ∈ line, (char == '\n') = false := by
  intro char member
  rw [beq_eq_false_iff_ne]
  intro feed
  exact whole (feed ▸ member)

theorem lines_unended (whole : '\n' ∉ line) :
    lines line = if line.isEmpty then [] else [line] := by
  have pieces : line.splitOn '\n' = [line] := by
    rw [List.splitOn_eq_splitOnP, List.splitOnP_eq_singleton (beq_newline_of_notMem whole)]
  rw [lines, pieces, ofPieces]

theorem lines_ended (whole : '\n' ∉ line) (rest : List Char) :
    lines (line ++ '\n' :: rest) = dropReturn line :: lines rest := by
  have pieces : (line ++ '\n' :: rest).splitOn '\n' = line :: rest.splitOn '\n' := by
    rw [List.splitOn_eq_splitOnP, List.splitOnP_append_cons _ _ (by rfl),
      List.splitOnP_eq_singleton (beq_newline_of_notMem whole)]
    rfl
  rw [lines, pieces, ofPieces, lines]
  exact List.splitOn_ne_nil '\n' rest

theorem dropReturn_cases (line : List Char) :
    dropReturn line = line ∨ line = dropReturn line ++ ['\r'] := by
  rw [dropReturn]
  split <;> rename_i returns
  · obtain ⟨front, rfl⟩ := List.getLast?_eq_some_iff.mp returns
    rw [List.dropLast_concat]
    exact .inr rfl
  · exact .inl rfl

theorem LineAt.unended (whole : '\n' ∉ line) (notEmpty : line ≠ []) : LineAt line 1 line := by
  refine ⟨0, rfl, ?_⟩
  rw [lines_unended whole, if_neg (mt List.isEmpty_iff.mp notEmpty)]
  rfl

theorem LineAt.ended (whole : '\n' ∉ line) :
    LineAt (line ++ '\n' :: rest) 1 (dropReturn line) := by
  refine ⟨0, rfl, ?_⟩
  rw [lines_ended whole]
  rfl

theorem LineAt.below (whole : '\n' ∉ line) (further : LineAt rest number fragment) :
    LineAt (line ++ '\n' :: rest) (number + 1) fragment := by
  obtain ⟨index, rfl, found⟩ := further
  refine ⟨index + 1, rfl, ?_⟩
  rw [lines_ended whole, List.getElem?_cons_succ]
  exact found

end Intcode.Text
