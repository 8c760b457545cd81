import Intcode.Program.Text
import Intcode.Proofs.Text.Blank
import Intcode.Proofs.Word.Decimal

namespace Intcode

namespace Text

theorem isBlank_of_mem_intercalate {pieces : List (List Char)}
    (plain : ∀ piece ∈ pieces, ∀ char ∈ piece, isBlank char = false) :
    ∀ char ∈ [','].intercalate pieces, isBlank char = false := by
  induction pieces with
  | nil => simp
  | cons first rest ih =>
      obtain ⟨plainFirst, plainRest⟩ := List.forall_mem_cons.mp plain
      cases rest with
      | nil => rwa [List.intercalate_singleton]
      | cons second more =>
          rw [List.intercalate_cons_cons]
          intro char member
          rcases List.mem_append.mp member with front | later
          · rcases List.mem_append.mp front with here | comma
            · exact plainFirst char here
            · rw [List.mem_singleton.mp comma]
              decide
          · exact ih plainRest char later

end Text

namespace Word

variable {word : Word} {char : Char}

theorem mem_digits (member : char ∈ word.digits) : char = '-' ∨ char.isDigit = true := by
  have digit {number : Nat} : char ∈ Nat.toDigits 10 number → char.isDigit = true :=
    Nat.isDigit_of_mem_toDigits (by decide) (by decide)
  unfold digits at member
  split at member
  · exact (List.mem_cons.mp member).imp_right digit
  · exact .inr (digit member)

theorem isBlank_of_mem_digits (member : char ∈ word.digits) : Text.isBlank char = false := by
  rcases mem_digits member with rfl | digit
  · decide
  · exact Text.isBlank_of_isDigit digit

theorem comma_notMem_digits : ',' ∉ word.digits := by
  intro comma
  rcases mem_digits comma with minus | digit
  · exact absurd minus (by decide)
  · exact absurd digit (by decide)

theorem digits_ne_nil : word.digits ≠ [] := by
  unfold digits
  split
  · exact List.cons_ne_nil _ _
  · exact Nat.toDigits_ne_nil

end Word

namespace Program

theorem readPiece_digits (word : Word) : readPiece word.digits = .ok word := by
  have some : word.digits.isEmpty = false :=
    Bool.eq_false_iff.mpr fun none => Word.digits_ne_nil (List.isEmpty_iff.mp none)
  simp only [readPiece, Text.trim_of_plain fun _ => Word.isBlank_of_mem_digits, some,
    Bool.false_eq_true, if_false, Word.parse_digits]

theorem readPieces_digits (index start : Nat) (words : List Word) :
    readPieces index start (words.map Word.digits) = .ok words := by
  induction words generalizing index start with
  | nil => rfl
  | cons word rest ih => rw [List.map_cons, readPieces, readPiece_digits, ih]; rfl

theorem toList_render (program : Program) :
    program.render.toList = [','].intercalate (program.words.map Word.digits) := by
  rw [render, String.toList_intercalate, List.map_map]
  simp [Function.comp_def, Word.render]

theorem isBlank_of_mem_render (program : Program) :
    ∀ char ∈ program.render.toList, Text.isBlank char = false := by
  rw [toList_render]
  refine Text.isBlank_of_mem_intercalate fun piece member char inside => ?_
  obtain ⟨word, _, rfl⟩ := List.mem_map.mp member
  exact Word.isBlank_of_mem_digits inside

/-- The pieces between the commas are the words. -/
theorem splitOn_render {program : Program} (some : program.words ≠ []) :
    program.render.toList.splitOn ',' = program.words.map Word.digits := by
  rw [toList_render]
  refine List.splitOn_intercalate ',' (fun piece member => ?_) (by simpa using some)
  obtain ⟨word, _, rfl⟩ := List.mem_map.mp member
  exact Word.comma_notMem_digits

theorem render_ne_nil {program : Program} (some : program.words ≠ []) :
    program.render.toList ≠ [] := by
  intro none
  obtain ⟨word, rest, words⟩ := List.exists_cons_of_ne_nil some
  have pieces := splitOn_render some
  rw [none, words, List.map_cons] at pieces
  cases rest with
  | nil => exact Word.digits_ne_nil (List.cons.inj pieces).1.symm
  | cons second more => cases (List.cons.inj pieces).2

/-- A written program is read back as it was. -/
theorem parse_of_render (program : Program) : parse program.render = .ok program := by
  have trimmed := Text.trim_of_plain program.isBlank_of_mem_render
  unfold parse
  simp only [trimmed]
  split
  · rename_i none
    have empty : program.words = [] := by
      by_contra some
      exact render_ne_nil some (List.isEmpty_iff.mp none)
    cases program
    cases empty
    rfl
  · rename_i some
    have words : program.words ≠ [] := by
      rintro empty
      rw [toList_render, empty] at some
      exact some rfl
    rw [splitOn_render words, readPieces_digits]
    rfl

/-- What is written is read back, so different programs are written differently, and a text that can
be read is written anew as one that reads the same. -/
theorem written_programs_read_back :
    (∀ words, parse (render ⟨words⟩) = .ok ⟨words⟩) ∧ Function.Injective render ∧
      ∀ source program, parse source = .ok program → parse program.render = .ok program := by
  refine ⟨fun words => parse_of_render ⟨words⟩, ?_, fun _ program _ => parse_of_render program⟩
  intro program other same
  have read := parse_of_render program
  rw [same, parse_of_render] at read
  exact (Except.ok.inj read).symm

/-- A text with blanks, a plus sign, leading zeros and the smallest word is written anew. -/
theorem padded_text_reads_back :
    ∃ program, parse " +007,\t-9223372036854775808\n" = .ok program ∧
      program.render = "7,-9223372036854775808" ∧ parse program.render = .ok program := by
  have read : parse " +007,\t-9223372036854775808\n" = .ok ⟨[7, -9223372036854775808]⟩ := by
    decide +kernel
  exact ⟨_, read, by decide +kernel, written_programs_read_back.2.2 _ _ read⟩

end Program

end Intcode
