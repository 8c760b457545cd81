import Intcode.Proofs.Assembly.Comments
import Intcode.Proofs.Assembly.Locality
import Intcode.Proofs.FirstFault
import Intcode.Proofs.Text.Lines

namespace Intcode

namespace AssemblyError

def atLine (line : Nat) : AssemblyError → AssemblyError
  | lexical error => .lexical { error with line }
  | grammar error => .grammar { error with line }
  | code error => .code { error with line }

theorem atLine_line (error : AssemblyError) : error.atLine error.line = error := by
  cases error <;> rfl

end AssemblyError

namespace Assembly

open Text

section CarriageReturn

variable {position : Position} {text behind : List Char} {items : List LexItem}
  {item : Except LexFault Token}

theorem Stops.concat {check : Char → Bool} {char : Char} (stops : Stops check behind)
    (fails : check char = false) : Stops check (behind ++ [char]) := by
  intro other head
  cases behind with
  | nil =>
      cases head
      exact fails
  | cons first rest => exact stops other head

/-- A carriage return goes on no lexeme but a comment. -/
theorem Spells.append_return (spells : Spells item text behind)
    (other : ∀ name, item ≠ .ok (.comment name)) : Spells item text (behind ++ ['\r']) := by
  cases spells with
  | newline => exact .newline
  | colon => exact .colon
  | equals => exact .equals
  | arrow => exact .arrow
  | comment line ends => exact absurd rfl (other _)
  | word word notDigit ends => exact .word word notDigit (ends.concat rfl)
  | labelRef word ends => exact .labelRef word (ends.concat rfl)
  | number word ends denotes => exact .number word (ends.concat rfl) denotes
  | invalidNumber word ends noArrow invalid =>
      refine .invalidNumber word (ends.concat rfl) (fun alone => ?_) invalid
      have before := noArrow alone
      cases behind with
      | nil => decide
      | cons first rest => exact before
  | emptyLabelReference ends => exact .emptyLabelReference (ends.concat rfl)
  | unexpectedToken notGap begins => exact .unexpectedToken notGap begins

theorem Lexes.append_return (lexes : Lexes position text items) :
    ∃ others, Lexes position (text ++ ['\r']) others ∧
      others.filter counts = items.filter counts := by
  induction lexes with
  | done => exact ⟨[], .gap rfl .done, rfl⟩
  | gap gap _ ih =>
      obtain ⟨others, later, same⟩ := ih
      exact ⟨others, .gap gap later, same⟩
  | @item position piece behind item items spells later ih =>
      obtain ⟨others, further, same⟩ := ih
      have goesOn (longer : Spells item piece (behind ++ ['\r'])) :
          ∃ others, Lexes position (piece ++ behind ++ ['\r']) others ∧
            others.filter counts = (position.locate item :: items).filter counts := by
        rw [List.append_assoc]
        refine ⟨_, .item longer further, ?_⟩
        rw [List.filter_cons, List.filter_cons, same]
      rcases spells.comment_or with ⟨body, name, rfl, rfl, line, ends⟩ | ⟨other, _⟩
      · rcases nil_or_newline_of_stops ends with rfl | ⟨rest, rfl⟩
        · have none : items = [] := by rw [← lexes_iff.mp later, lexAt_nil]
          have whole : ∀ char ∈ body ++ ['\r'], char ≠ '\n' := by
            simpa [or_imp, forall_and] using line
          have longer : Lexes position ('#' :: (body ++ ['\r']) ++ []) _ :=
            .item (.comment whole ends) .done
          rw [List.append_nil] at longer
          refine ⟨_, by simpa using longer, ?_⟩
          rw [none]
          rfl
        · exact goesOn (spells.transfer fun char head => .inl (Option.some.inj head).symm)
      · exact goesOn (spells.append_return other)

/-- What is read from a text, without comments. -/
def codeOf (text : List Char) : Except LexError (List Token) :=
  (tokens (String.ofList text)).map (List.filter fun token => !token.isComment)

theorem codeOf_eq (text : List Char) : codeOf text = ((lexAt {} text).filter counts).mapM id := by
  rw [codeOf, tokens, lex, String.toList_ofList, mapM_id_filter]
  rfl

theorem codeOf_dropReturn (line : List Char) : codeOf (dropReturn line) = codeOf line := by
  rcases dropReturn_cases line with same | returns
  · rw [same]
  · have lexes : Lexes {} (dropReturn line) (lexAt {} (dropReturn line)) := lexes_iff.mpr rfl
    obtain ⟨others, longer, same⟩ := lexes.append_return
    rw [← returns] at longer
    rw [codeOf_eq, codeOf_eq, lexes_iff.mp longer, same]

theorem read_eq (source : String) :
    read source = (do
      let code ← (codeOf source.toList).mapError .lexical
      (statements code).mapError .grammar) := by
  rw [read, codeOf, String.ofList_toList]
  cases tokens source with
  | error error => rfl
  | ok row => exact (congrArg (Except.mapError AssemblyError.grammar) (statements_filter row)).symm

theorem read_dropReturn (line : List Char) :
    read (String.ofList (dropReturn line)) = read (String.ofList line) := by
  rw [read_eq, read_eq, String.toList_ofList, String.toList_ofList, codeOf_dropReturn]

end CarriageReturn

section Lines

variable {line rest : List Char} {first second : List Token}

theorem tokens_ended (whole : '\n' ∉ line) (rest : List Char) :
    tokens (String.ofList (line ++ '\n' :: rest)) = (do
      let first ← tokens (String.ofList line)
      let second ← (tokens (String.ofList rest)).mapError (LexError.moveDown 1)
      pure (first ++ .newline :: second)) := by
  have parts : String.ofList (line ++ '\n' :: rest) =
      String.ofList line ++ "\n" ++ String.ofList rest := by
    rw [List.append_cons, String.ofList_append, String.ofList_append]
  have count : (String.ofList line).toList.count '\n' = 0 := by
    rw [String.toList_ofList, List.count_eq_zero]
    exact whole
  rw [parts, tokens_joined, count]

theorem Lexes.exists_piece {position : Position} {text : List Char} {items : List LexItem}
    {item : LexItem} (lexes : Lexes position text items) (member : item ∈ items) :
    ∃ front piece behind found, text = front ++ (piece ++ behind) ∧ Spells found piece behind ∧
      item = (position.past front).locate found := by
  induction lexes with
  | done => cases member
  | @gap position char rest items gap _ ih =>
      obtain ⟨front, piece, behind, found, rfl, spells, located⟩ := ih member
      exact ⟨char :: front, piece, behind, found, rfl, spells, located⟩
  | @item position text behind found items spells _ ih =>
      rcases List.mem_cons.mp member with rfl | later
      · exact ⟨[], text, behind, found, rfl, spells, rfl⟩
      · obtain ⟨front, piece, further, other, rfl, spelled, located⟩ := ih later
        refine ⟨text ++ front, piece, further, other, ?_, spelled, ?_⟩
        · rw [List.append_assoc]
        · rw [Position.past_append]
          exact located

theorem exists_piece_of_error {text : List Char} {error : LexError}
    (failed : tokens (String.ofList text) = .error error) :
    ∃ front piece behind, text = front ++ (piece ++ behind) ∧
      Spells (.error error.fault) piece behind ∧
      error.line = 1 + front.count '\n' ∧
      ('\n' ∉ front → error.column = 1 + byteLength front) := by
  have lexes : Lexes {} text (lex (String.ofList text)) := by
    rw [lexes_iff, lex, String.toList_ofList]
    rfl
  obtain ⟨before, row, after, split, fault, _⟩ := mapM_eq_error_iff.mp failed
  have member : row ∈ lex (String.ofList text) := by simp [split]
  obtain ⟨front, piece, behind, found, parts, spells, located⟩ := lexes.exists_piece member
  rw [id, located] at fault
  cases found with
  | ok token => cases fault
  | error kind =>
      cases fault
      refine ⟨front, piece, behind, parts, spells, ?_, fun line => ?_⟩
      · simp only [Position.past_start]
      · simp only [Position.past_of_line line]

theorem exists_row_of_line (whole : '\n' ∉ line)
    (lexed : tokens (String.ofList line) = .ok first) : ∃ row, rowsOf first = [row] := by
  rw [← List.length_eq_one_iff, length_rowsOf, count_of_tokens lexed, String.toList_ofList,
    List.count_eq_zero.mpr whole]

theorem read_line_eq (whole : '\n' ∉ line) (lexed : tokens (String.ofList line) = .ok first) :
    ∃ row, read (String.ofList line) = (readLines 1 [row]).mapError .grammar := by
  obtain ⟨row, rows⟩ := exists_row_of_line whole lexed
  refine ⟨row, ?_⟩
  rw [read, lexed, ← rows]
  rfl

theorem line_of_read_error {error : AssemblyError} (whole : '\n' ∉ line)
    (failed : read (String.ofList line) = .error error) : error.line = 1 := by
  cases lexed : tokens (String.ofList line) with
  | error other =>
      obtain ⟨front, piece, behind, rfl, _, number, _⟩ := exists_piece_of_error lexed
      have none : front.count '\n' = 0 :=
        List.count_eq_zero.mpr fun feed => whole (List.mem_append_left _ feed)
      rw [read, lexed] at failed
      cases failed
      rw [AssemblyError.line, number, none]
  | ok first =>
      obtain ⟨row, same⟩ := read_line_eq whole lexed
      rw [same, readLines] at failed
      split at failed <;> cases failed
      rfl

theorem eq_singleton_of_read {batch : List Statement} {statement : Statement} (whole : '\n' ∉ line)
    (found : read (String.ofList line) = .ok batch) (member : statement ∈ batch) :
    statement.line = 1 ∧ batch = [statement] := by
  cases lexed : tokens (String.ofList line) with
  | error other =>
      rw [read, lexed] at found
      cases found
  | ok first =>
      obtain ⟨row, same⟩ := read_line_eq whole lexed
      rw [same, readLines] at found
      split at found <;> cases found
      · cases member
      · rw [List.mem_singleton.mp member]
        exact ⟨rfl, rfl⟩

/-- A text is refused for its first line, or for what is below it, or each says its own. -/
theorem read_ended_cases (whole : '\n' ∉ line) (rest : List Char) :
    (∃ error, read (String.ofList line) = .error error ∧
      read (String.ofList (line ++ '\n' :: rest)) = .error error) ∨
    (∃ error later, read (String.ofList rest) = .error later ∧
      read (String.ofList (line ++ '\n' :: rest)) = .error error ∧
      error.line = later.line + 1 ∧ error.atLine 1 = later.atLine 1) ∨
    ∃ above below, read (String.ofList line) = .ok above ∧ read (String.ofList rest) = .ok below ∧
      read (String.ofList (line ++ '\n' :: rest)) =
        .ok (above ++ below.map (Statement.moveDown 1)) := by
  simp only [read, tokens_ended whole]
  cases lexed : tokens (String.ofList line) with
  | error error => exact .inl ⟨_, rfl, rfl⟩
  | ok first =>
      cases tokens (String.ofList rest) with
      | error error => exact .inr (.inl ⟨_, _, rfl, rfl, rfl, rfl⟩)
      | ok second =>
          have count : first.count .newline = 0 := by
            rw [count_of_tokens lexed, String.toList_ofList, List.count_eq_zero]
            exact whole
          have said := statements_append first second
          rw [count] at said
          simp only [Except.mapError, bind, Except.bind, pure, Except.pure, said]
          cases statements first with
          | error error => exact .inl ⟨_, rfl, rfl⟩
          | ok above =>
              cases statements second with
              | error error => exact .inr (.inl ⟨_, _, rfl, rfl, rfl, rfl⟩)
              | ok below => exact .inr (.inr ⟨above, below, rfl, rfl, rfl⟩)

theorem read_empty : read (String.ofList []) = .ok [] := by
  decide +kernel

/-- An error is found on its line, read on its own. -/
theorem exists_fragment_of_error {text : List Char} {error : AssemblyError}
    (failed : read (String.ofList text) = .error error) :
    ∃ fragment, LineAt text error.line fragment ∧
      read (String.ofList fragment) = .error (error.atLine 1) := by
  induction text using line_induction generalizing error with
  | unended line whole =>
      have notEmpty : line ≠ [] := by
        intro empty
        rw [empty, read_empty] at failed
        cases failed
      have first := line_of_read_error whole failed
      refine ⟨line, first ▸ .unended whole notEmpty, ?_⟩
      rw [failed, ← first, AssemblyError.atLine_line]
  | ended line rest whole ih =>
      rcases read_ended_cases whole rest with
        ⟨other, fails, same⟩ | ⟨other, later, fails, same, down, alike⟩ |
        ⟨above, below, _, _, same⟩ <;>
        rw [same] at failed <;> cases failed
      · have first := line_of_read_error whole fails
        refine ⟨dropReturn line, first ▸ .ended whole, ?_⟩
        rw [read_dropReturn, fails, ← first, AssemblyError.atLine_line]
      · obtain ⟨fragment, place, alone⟩ := ih fails
        rw [down, alike]
        exact ⟨fragment, place.below whole, alone⟩

/-- A statement is what its line says on its own. -/
theorem exists_fragment_of_statement {text : List Char} {batch : List Statement}
    {statement : Statement} (found : read (String.ofList text) = .ok batch)
    (member : statement ∈ batch) :
    ∃ fragment, LineAt text statement.line fragment ∧
      read (String.ofList fragment) = .ok [{ statement with line := 1 }] := by
  induction text using line_induction generalizing batch statement with
  | unended line whole =>
      have notEmpty : line ≠ [] := by
        intro empty
        rw [empty, read_empty] at found
        cases found
        cases member
      obtain ⟨first, single⟩ := eq_singleton_of_read whole found member
      refine ⟨line, first ▸ .unended whole notEmpty, ?_⟩
      rw [found, single, ← first]
  | ended line rest whole ih =>
      rcases read_ended_cases whole rest with
        ⟨other, fails, same⟩ | ⟨other, later, fails, same, _⟩ | ⟨above, below, head, tail, same⟩ <;>
        rw [same] at found <;> cases found
      rcases List.mem_append.mp member with inside | further
      · obtain ⟨first, single⟩ := eq_singleton_of_read whole head inside
        refine ⟨dropReturn line, first ▸ .ended whole, ?_⟩
        rw [read_dropReturn, head, single, ← first]
      · obtain ⟨other, inside, rfl⟩ := List.mem_map.mp further
        obtain ⟨fragment, place, alone⟩ := ih tail inside
        exact ⟨fragment, place.below whole, alone⟩

end Lines

end Assembly

end Intcode
