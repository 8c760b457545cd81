import Intcode.Proofs.Assembly.Extent
import Intcode.Proofs.Assembly.Lexing

namespace Intcode.Assembly

/-- Leaves out every `#` with all that follows it on its line. -/
def dropComments : List Char → List Char
  | [] => []
  | char :: rest =>
      if char = '#' then dropComments (rest.dropWhile (· ≠ '\n'))
      else char :: dropComments rest
termination_by text => text.length
decreasing_by
  · have shorter := (List.dropWhile_suffix (· ≠ '\n') (l := rest)).length_le
    exact Nat.lt_succ_of_le shorter
  · exact Nat.lt_succ_self _

def withoutComments (source : String) : String :=
  String.ofList (dropComments source.toList)

/-- Is an item something else than a comment? -/
def counts : LexItem → Bool
  | .ok token => !token.isComment
  | .error _ => true

variable {position : Position} {text behind piece : List Char} {char : Char} {items : List LexItem}
  {item : Except LexFault Token}

@[simp] theorem dropComments_nil : dropComments [] = [] := by
  rw [dropComments]

theorem dropComments_cons (other : char ≠ '#') :
    dropComments (char :: text) = char :: dropComments text := by
  rw [dropComments, if_neg other]

theorem dropComments_append (other : '#' ∉ piece) :
    dropComments (piece ++ behind) = piece ++ dropComments behind := by
  induction piece with
  | nil => rfl
  | cons char rest ih =>
      rw [List.mem_cons, not_or] at other
      rw [List.cons_append, dropComments_cons (Ne.symm other.1), ih other.2, List.cons_append]

theorem dropComments_comment (line : ∀ char ∈ piece, char ≠ '\n')
    (ends : Stops (· ≠ '\n') behind) :
    dropComments ('#' :: piece ++ behind) = dropComments behind := by
  have all : ∀ char ∈ piece, decide (char ≠ '\n') = true := fun char member =>
    decide_eq_true (line char member)
  rw [List.cons_append, dropComments, if_pos rfl, dropWhile_of_stops all ends]

theorem head_dropComments :
    ∀ char ∈ (dropComments text).head?, char = '\n' ∨ char ∈ text.head? := by
  intro char head
  cases text with
  | nil =>
      rw [dropComments_nil] at head
      cases head
  | cons first rest =>
      by_cases hash : first = '#'
      · rw [dropComments, if_pos hash] at head
        rcases nil_or_newline_of_stops (stops_dropWhile (· ≠ '\n') rest) with none | ⟨more, line⟩
        · rw [none, dropComments_nil] at head
          cases head
        · rw [line, dropComments_cons (by decide)] at head
          cases head
          exact .inl rfl
      · rw [dropComments_cons hash] at head
        exact .inr head

/-- A lexeme is a comment, or has no beginning of a comment in it. -/
theorem Spells.comment_or (spells : Spells item text behind) :
    (∃ body name, item = .ok (.comment name) ∧ text = '#' :: body ∧ (∀ char ∈ body, char ≠ '\n') ∧
      Stops (· ≠ '\n') behind) ∨
    (∀ name, item ≠ .ok (.comment name)) ∧ '#' ∉ text := by
  cases spells with
  | newline | colon | equals | arrow | emptyLabelReference => exact .inr ⟨by simp, by decide⟩
  | comment line ends => exact .inl ⟨_, _, rfl, rfl, line, ends⟩
  | word word => exact .inr ⟨by simp, word.notMem rfl⟩
  | labelRef word => exact .inr ⟨by simp, by simpa using word.notMem rfl⟩
  | number word => exact .inr ⟨by simp, word.notMem rfl (by decide)⟩
  | invalidNumber word => exact .inr ⟨by simp, word.notMem rfl (by decide)⟩
  | unexpectedToken _ other =>
      refine .inr ⟨by simp, fun hash => ?_⟩
      rw [← List.mem_singleton.mp hash] at other
      cases other

theorem lexAt_of_stops {other : Position} (stops : Stops (· ≠ '\n') text)
    (same : position.line = other.line) : lexAt position text = lexAt other text := by
  rcases nil_or_newline_of_stops stops with rfl | ⟨rest, rfl⟩
  · rw [lexAt_nil, lexAt_nil]
  · rw [lexAt_newline, lexAt_newline, Position.next, Position.next, if_pos rfl, if_pos rfl, same]

theorem lexAt_dropComments (lexes : Lexes position text items) :
    lexAt position (dropComments text) = items.filter counts := by
  induction lexes with
  | done => rw [dropComments_nil, lexAt_nil, List.filter_nil]
  | @gap position char rest items gap _ ih =>
      have other : char ≠ '#' := by
        rintro rfl
        cases gap
      rw [dropComments_cons other, lexAt_gap gap, ih]
  | @item position piece behind item items spells _ ih =>
      rcases spells.comment_or with ⟨body, name, rfl, rfl, line, ends⟩ | ⟨other, clean⟩
      · have begins := ends.transfer (by decide) head_dropComments
        have moved : position.line = (position.past ('#' :: body)).line := by
          rw [Position.past_of_line]
          rw [List.mem_cons, not_or]
          exact ⟨by decide, fun newline => line '\n' newline rfl⟩
        rw [dropComments_comment line ends, lexAt_of_stops begins moved, ih]
        rfl
      · have kept : counts (position.locate item) = true := by
          cases item with
          | error fault => rfl
          | ok token =>
              cases token with
              | comment name => exact absurd rfl (other name)
              | _ => rfl
        rw [dropComments_append clean, lexAt_spelled (spells.transfer head_dropComments), ih,
          List.filter_cons_of_pos kept]

theorem mapM_id_filter (items : List LexItem) :
    (items.filter counts).mapM id =
      (items.mapM id).map (List.filter fun token => !token.isComment) := by
  induction items with
  | nil => rfl
  | cons item rest ih =>
      cases item with
      | error fault =>
          rw [List.filter_cons_of_pos rfl, List.mapM_cons, List.mapM_cons]
          rfl
      | ok token =>
          cases comment : token.isComment with
          | true =>
              have dropped : ¬ counts (.ok token) = true := by simp [counts, comment]
              rw [List.filter_cons_of_neg dropped, ih, List.mapM_cons]
              cases rest.mapM id <;>
                simp [comment, bind, Except.bind, pure, Except.pure, Except.map]
          | false =>
              have kept : counts (.ok token) = true := by simp [counts, comment]
              rw [List.filter_cons_of_pos kept, List.mapM_cons, ih, List.mapM_cons]
              cases rest.mapM id <;>
                simp [comment, bind, Except.bind, pure, Except.pure, Except.map]

theorem tokens_withoutComments (source : String) :
    tokens (withoutComments source) =
      (tokens source).map (List.filter fun token => !token.isComment) := by
  have lexes : Lexes {} source.toList (lex source) := lexes_iff.mpr rfl
  have left : lex (withoutComments source) = (lex source).filter counts := by
    rw [lex, withoutComments, String.toList_ofList]
    exact lexAt_dropComments lexes
  rw [tokens, left, mapM_id_filter, tokens]

theorem statements_filter (row : List Token) :
    statements (row.filter fun token => !token.isComment) = statements row := by
  rw [statements, List.filter_filter]
  simp only [Bool.and_self]
  rfl

theorem read_withoutComments (source : String) : read (withoutComments source) = read source := by
  rw [read, tokens_withoutComments, read]
  cases tokens source with
  | error error => rfl
  | ok row => exact congrArg (Except.mapError AssemblyError.grammar) (statements_filter row)

/-- A text is assembled as it is without its comments, to the same program or with the same error
at the same place. -/
theorem comments_never_matter (source : String) :
    assemble (withoutComments source) = assemble source := by
  rw [assemble, Listing.ofSource, read_withoutComments, assemble, Listing.ofSource]

end Intcode.Assembly
