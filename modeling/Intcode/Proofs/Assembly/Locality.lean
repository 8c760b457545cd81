import Intcode.Proofs.Assembly.Extent
import Intcode.Proofs.Assembly.Lexing
import Mathlib.Data.List.Count

namespace Intcode.Assembly

def LexError.moveDown (lines : Nat) (error : LexError) : LexError :=
  { error with line := error.line + lines }

def SyntaxError.moveDown (lines : Nat) (error : SyntaxError) : SyntaxError :=
  { error with line := error.line + lines }

def Statement.moveDown (lines : Nat) (statement : Statement) : Statement :=
  { statement with line := statement.line + lines }

namespace Position

variable {position : Position} {lines : Nat}

def moveDown (lines : Nat) (position : Position) : Position :=
  { position with line := position.line + lines }

theorem next_moveDown (char : Char) :
    (position.moveDown lines).next char = (position.next char).moveDown lines := by
  simp only [next, moveDown]
  split
  · rw [Nat.add_right_comm]
  · rfl

theorem past_moveDown (text : List Char) :
    (position.moveDown lines).past text = (position.past text).moveDown lines := by
  induction text generalizing position with
  | nil => rfl
  | cons char rest ih => rw [past_cons, next_moveDown, ih, past_cons]

theorem locate_moveDown (item : Except LexFault Token) :
    (position.moveDown lines).locate item =
      (position.locate item).mapError (LexError.moveDown lines) := by
  cases item <;> rfl

/-- A line feed leads to the start of the next line. -/
theorem past_newline (text : List Char) :
    ({} : Position).past (text ++ ['\n']) = ({} : Position).moveDown (1 + text.count '\n') := by
  rw [past_append, past_start, past_cons, past_nil, next, if_pos rfl, moveDown, Nat.add_comm]

end Position

variable {position : Position} {text : List Char} {items : List LexItem} {lines line : Nat}

theorem Lexes.moveDown (lexes : Lexes position text items) :
    Lexes (position.moveDown lines) text (items.map (Except.mapError (LexError.moveDown lines))) := by
  induction lexes with
  | done => exact .done
  | gap gap _ ih => exact .gap gap (Position.next_moveDown _ ▸ ih)
  | item spells _ ih =>
      rw [List.map_cons, ← Position.locate_moveDown]
      exact .item spells (Position.past_moveDown _ ▸ ih)

/-- There are as many line feeds among the items of a text as among its characters. -/
theorem Lexes.count_newline (lexes : Lexes position text items) :
    items.count (.ok .newline) = text.count '\n' := by
  induction lexes with
  | done => rfl
  | @gap position char rest items gap _ ih =>
      have other : char ≠ '\n' := by
        rintro rfl
        cases gap
      rw [List.count_cons_of_ne other, ih]
  | @item position text behind item items spells _ ih =>
      rw [List.count_append, ← ih]
      rcases spells.newline_or with ⟨rfl, rfl⟩ | ⟨other, line⟩
      · rw [List.count_singleton_self, Nat.add_comm]
        exact List.count_cons_self
      · have located : position.locate item ≠ .ok .newline := fun newline =>
          other (mapError_eq_ok newline)
        rw [List.count_eq_zero.mpr line, Nat.zero_add, List.count_cons_of_ne located]

/-- The items of two texts with a line feed between them. -/
theorem lex_append (above below : String) :
    lex (above ++ "\n" ++ below) =
      lex above ++ .ok .newline ::
        (lex below).map (Except.mapError (LexError.moveDown (1 + above.toList.count '\n'))) := by
  have first : Lexes {} above.toList (lex above) := lexes_iff.mpr rfl
  have second : Lexes {} below.toList (lex below) := lexes_iff.mpr rfl
  have later := Position.past_newline above.toList ▸ second.moveDown
  have whole := lexes_iff.mp (first.append_newline later)
  rw [← whole, lex, String.toList_append, String.toList_append, List.append_assoc]
  rfl

theorem count_of_tokens {source : String} {found : List Token} (lexed : tokens source = .ok found) :
    found.count .newline = source.toList.count '\n' := by
  have lexes : Lexes {} source.toList (lex source) := lexes_iff.mpr rfl
  rw [mapM_id_eq_ok_iff.mp lexed] at lexes
  rw [← lexes.count_newline]
  exact (List.count_map_of_injective found Except.ok (fun _ _ => Except.ok.inj) _).symm

/-- The line feed between two texts is a token between theirs. -/
theorem tokens_joined (above below : String) :
    tokens (above ++ "\n" ++ below) = (do
      let first ← tokens above
      let second ← (tokens below).mapError (LexError.moveDown (1 + above.toList.count '\n'))
      pure (first ++ .newline :: second)) := by
  simp only [tokens, lex_append, List.mapM_append, List.mapM_cons, mapM_id_mapError]
  cases (lex above).mapM id with
  | error error => rfl
  | ok first => cases (lex below).mapM id <;> rfl

theorem tokens_append {above below : String} {first second : List Token}
    (lexedAbove : tokens above = .ok first) (lexedBelow : tokens below = .ok second) :
    tokens (above ++ "\n" ++ below) = .ok (first ++ .newline :: second) := by
  rw [tokens_joined, lexedAbove, lexedBelow]
  rfl

/-- Rows further down say the same, further down. -/
theorem readLines_moveDown (rows : List (List Token)) :
    readLines (line + lines) rows =
      ((readLines line rows).mapError (SyntaxError.moveDown lines)).map
        (List.map (Statement.moveDown lines)) := by
  induction rows generalizing line with
  | nil => rfl
  | cons tokens rest ih =>
      have next := Nat.add_right_comm line lines 1 ▸ @ih (line + 1)
      simp only [readLines]
      cases readLine tokens with
      | error fault => rfl
      | ok item? =>
          cases item? with
          | none => exact next
          | some item =>
              simp only [next]
              cases readLines (line + 1) rest <;> rfl

theorem readLines_append (above below : List (List Token)) :
    readLines line (above ++ below) = (do
      let first ← readLines line above
      let second ← readLines (line + above.length) below
      pure (first ++ second)) := by
  induction above generalizing line with
  | nil =>
      rw [List.nil_append, readLines, List.length_nil, Nat.add_zero]
      cases readLines line below <;> rfl
  | cons tokens rest ih =>
      have count : line + (tokens :: rest).length = line + 1 + rest.length := by
        rw [List.length_cons, Nat.add_comm rest.length, Nat.add_assoc]
      rw [List.cons_append, readLines, readLines, count, ih]
      cases readLine tokens with
      | error fault => rfl
      | ok item? =>
          cases item? with
          | none => rfl
          | some item =>
              cases readLines (line + 1) rest with
              | error error => rfl
              | ok first => cases readLines (line + 1 + rest.length) below <;> rfl

/-- The rows of a token list, without comments. -/
def rowsOf (tokens : List Token) : List (List Token) :=
  (tokens.filter fun token => !token.isComment).splitOn .newline

theorem statements_eq (tokens : List Token) : statements tokens = readLines 1 (rowsOf tokens) := rfl

theorem rowsOf_append (first second : List Token) :
    rowsOf (first ++ .newline :: second) = rowsOf first ++ rowsOf second := by
  simp only [rowsOf, List.filter_append, List.splitOn_eq_splitOnP]
  exact List.splitOnP_append_cons _ _ (beq_self_eq_true _)

theorem length_splitOn (tokens : List Token) :
    (tokens.splitOn .newline).length = 1 + tokens.count .newline := by
  rw [List.splitOn_eq_splitOnP]
  induction tokens with
  | nil => simp
  | cons token rest ih =>
      rw [List.splitOnP_cons_eq_if_modifyHead, List.count_cons]
      split
      · rw [List.length_cons, ih]
        omega
      · rw [List.length_modifyHead, ih]
        rfl

theorem length_rowsOf (tokens : List Token) :
    (rowsOf tokens).length = 1 + tokens.count .newline := by
  rw [rowsOf, length_splitOn, List.count_filter rfl]

/-- Tokens above a line feed are read first; below it everything is as it is on its own, but for
the lines. -/
theorem statements_append (first second : List Token) :
    statements (first ++ .newline :: second) =
      match statements first, statements second with
      | .error error, _ => .error error
      | .ok _, .error error => .error (error.moveDown (1 + first.count .newline))
      | .ok above, .ok below =>
          .ok (above ++ below.map (Statement.moveDown (1 + first.count .newline))) := by
  simp only [statements_eq]
  rw [rowsOf_append, readLines_append, readLines_moveDown, length_rowsOf]
  cases readLines 1 (rowsOf first) with
  | error error => rfl
  | ok above => cases readLines 1 (rowsOf second) <;> rfl

/-- Lines are read on their own. A line feed between two texts is one more token, and what is below
it is read as it is without the lines above, but for the line numbers. -/
theorem reading_is_line_local (above below : String) :
    let lines := 1 + above.toList.count '\n'
    lex (above ++ "\n" ++ below) =
        lex above ++ .ok .newline :: (lex below).map (Except.mapError fun error =>
          { error with line := error.line + lines }) ∧
      ∀ first second, tokens above = .ok first → tokens below = .ok second →
        tokens (above ++ "\n" ++ below) = .ok (first ++ .newline :: second) ∧
        statements (first ++ .newline :: second) =
          match statements first, statements second with
          | .error error, _ => .error error
          | .ok _, .error error => .error { error with line := error.line + lines }
          | .ok head, .ok rest =>
              .ok (head ++ rest.map fun statement =>
                { statement with line := statement.line + lines }) := by
  refine ⟨lex_append above below, fun first second lexedAbove lexedBelow => ⟨?_, ?_⟩⟩
  · exact tokens_append lexedAbove lexedBelow
  · rw [statements_append, count_of_tokens lexedAbove]
    rfl

/-- An error is found on the line it has below a comment and a blank line. -/
theorem incomplete_line_is_found_below_comment :
    tokens "out 7 # seven\n\nadd 1 2" =
        .ok [.word "out", .number 7, .comment "# seven", .newline, .newline, .word "add",
          .number 1, .number 2] ∧
      statements [.word "out", .number 7, .comment "# seven", .newline, .newline, .word "add",
        .number 1, .number 2] = .error { fault := .incompleteStatement, line := 3 } := by
  have lexedAbove : tokens "out 7 # seven" =
      .ok [.word "out", .number 7, .comment "# seven"] := by decide +kernel
  have lexedBelow : tokens "\nadd 1 2" = .ok [.newline, .word "add", .number 1, .number 2] := by
    decide +kernel
  obtain ⟨lexed, said⟩ := (reading_is_line_local _ _).2 _ _ lexedAbove lexedBelow
  exact ⟨lexed, said⟩

end Intcode.Assembly
