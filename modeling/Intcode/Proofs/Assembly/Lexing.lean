import Intcode.Proofs.Assembly.Lexemes
import Mathlib.Data.List.DropRight

namespace Intcode.Assembly

/-! # Lexing

A text is cut into gaps and lexemes from left to right. What is read from it is told here by the
cuts alone, and there is just one way to make them.
-/

/-- A place in a text. Lines and columns count from one, columns in bytes. -/
structure Position where
  line : Nat := 1
  column : Nat := 1

namespace Position

variable {position : Position} {char : Char} {text more : List Char}

def next (position : Position) (char : Char) : Position :=
  if char = '\n' then { line := position.line + 1, column := 1 }
  else { position with column := position.column + char.utf8Size }

/-- The position behind a text. -/
def past (position : Position) (text : List Char) : Position :=
  text.foldl next position

def locate (position : Position) (item : Except LexFault Token) : LexItem :=
  item.mapError fun fault => { fault, line := position.line, column := position.column }

@[simp] theorem past_nil : position.past [] = position := rfl

@[simp] theorem past_cons : position.past (char :: text) = (position.next char).past text := rfl

theorem past_append : position.past (text ++ more) = (position.past text).past more :=
  List.foldl_append

/-- Within a line only the column changes. -/
theorem past_of_line (line : '\n' ∉ text) :
    position.past text = { position with column := position.column + Text.byteLength text } := by
  induction text generalizing position with
  | nil => rfl
  | cons char rest ih =>
      rw [List.mem_cons, not_or] at line
      obtain ⟨notNewline, others⟩ := line
      rw [past_cons, ih others, next, if_neg (Ne.symm notNewline), Text.byteLength_cons,
        Nat.add_assoc]

/-- The line counts the line feeds before a place, the column the bytes since the last of them. -/
theorem past_start (text : List Char) :
    ({} : Position).past text =
      { line := 1 + text.count '\n'
        column := 1 + Text.byteLength (text.rtakeWhile (· ≠ '\n')) } := by
  induction text using List.reverseRecOn with
  | nil => rfl
  | append_singleton before char ih =>
      rw [past_append, ih, past_cons, past_nil, next]
      split
      · rename_i newline
        rw [newline, List.rtakeWhile_concat_neg _ _ _ (by simp)]
        simp [Nat.add_assoc]
      · rename_i other
        rw [List.rtakeWhile_concat_pos _ _ _ (by simpa using other)]
        simp [other, Nat.add_assoc]

end Position

variable {position : Position} {char first : Char} {text rest behind more : List Char}
  {items others : List LexItem} {item : Except LexFault Token}

theorem IsWord.notMem (word : IsWord text) (fails : isWordChar char = false) : char ∉ text := by
  intro member
  rw [word.2 char member] at fails
  cases fails

theorem IsNumberWord.ne_nil (word : IsNumberWord text) : text ≠ [] := by
  cases word <;> exact List.cons_ne_nil _ _

theorem IsNumberWord.notMem (word : IsNumberWord text) (fails : isWordChar char = false)
    (sign : char ≠ '-') : char ∉ text := by
  intro member
  cases word with
  | unsigned digit all =>
      rcases List.mem_cons.mp member with same | later
      · rw [same, Lexeme.isWordChar_of_isDigit digit] at fails
        cases fails
      · rw [all char later] at fails
        cases fails
  | signed all =>
      rcases List.mem_cons.mp member with same | later
      · exact sign same
      · rw [all char later] at fails
        cases fails

theorem Spells.ne_nil (spells : Spells item text behind) : text ≠ [] := by
  cases spells with
  | word word => exact word.1
  | number word | invalidNumber word => exact word.ne_nil
  | _ => exact List.cons_ne_nil _ _

/-- A line feed is the only lexeme with a line feed in it. -/
theorem Spells.newline_or (spells : Spells item text behind) :
    item = .ok .newline ∧ text = ['\n'] ∨ item ≠ .ok .newline ∧ '\n' ∉ text := by
  cases spells with
  | newline => exact .inl ⟨rfl, rfl⟩
  | colon | equals | arrow | emptyLabelReference => exact .inr ⟨by simp, by decide⟩
  | comment line => exact .inr ⟨by simp, by simpa using fun newline => line '\n' newline rfl⟩
  | word word => exact .inr ⟨by simp, word.notMem rfl⟩
  | labelRef word => exact .inr ⟨by simp, by simpa using word.notMem rfl⟩
  | number word => exact .inr ⟨by simp, word.notMem rfl (by decide)⟩
  | invalidNumber word => exact .inr ⟨by simp, word.notMem rfl (by decide)⟩
  | unexpectedToken _ other =>
      refine .inr ⟨by simp, fun newline => ?_⟩
      rw [← List.mem_singleton.mp newline] at other
      cases other

/-- What comes behind a lexeme does not matter for it, if it begins the same way or with a line
feed. -/
theorem Spells.transfer (spells : Spells item text behind)
    (heads : ∀ char ∈ more.head?, char = '\n' ∨ char ∈ behind.head?) : Spells item text more := by
  cases spells with
  | newline => exact .newline
  | colon => exact .colon
  | equals => exact .equals
  | arrow => exact .arrow
  | comment line ends => exact .comment line (ends.transfer (by decide) heads)
  | word word notDigit ends => exact .word word notDigit (ends.transfer rfl heads)
  | labelRef word ends => exact .labelRef word (ends.transfer rfl heads)
  | number word ends denotes => exact .number word (ends.transfer rfl heads) denotes
  | invalidNumber word ends noArrow other =>
      refine .invalidNumber word (ends.transfer rfl heads) (fun alone arrow => ?_) other
      rcases heads '>' arrow with newline | same
      · cases newline
      · exact noArrow alone same
  | emptyLabelReference ends => exact .emptyLabelReference (ends.transfer rfl heads)
  | unexpectedToken notGap other => exact .unexpectedToken notGap other

/-- A lexeme ends where a line ends, if not before. -/
theorem Spells.append (spells : Spells item text behind) :
    Spells item text (behind ++ '\n' :: more) := by
  refine spells.transfer fun char head => ?_
  cases behind with
  | nil =>
      cases head
      exact .inl rfl
  | cons first rest => exact .inr head

/-- A text with what is read from it. -/
inductive Lexes : Position → List Char → List LexItem → Prop
  | done {position : Position} : Lexes position [] []
  | gap {position : Position} {char : Char} {rest : List Char} {items : List LexItem}
      (gap : isGap char = true) (lexes : Lexes (position.next char) rest items) :
      Lexes position (char :: rest) items
  | item {position : Position} {text behind : List Char} {item : Except LexFault Token}
      {items : List LexItem} (spells : Spells item text behind)
      (lexes : Lexes (position.past text) behind items) :
      Lexes position (text ++ behind) (position.locate item :: items)

def lexAt (position : Position) (text : List Char) : List LexItem :=
  lexFrom position.line position.column text

@[simp] theorem lexAt_nil : lexAt position [] = [] := by
  rw [lexAt, lexFrom]

theorem lexAt_gap (gap : isGap char = true) :
    lexAt position (char :: rest) = lexAt (position.next char) rest := by
  have notNewline : char ≠ '\n' := by
    rintro rfl
    cases gap
  rw [lexAt, lexFrom, if_pos gap, Position.next, if_neg notNewline]
  rfl

theorem lexAt_gaps {gap : List Char} (blank : ∀ char ∈ gap, isGap char = true) :
    lexAt position (gap ++ text) = lexAt (position.past gap) text := by
  induction gap generalizing position with
  | nil => rfl
  | cons char rest ih =>
      obtain ⟨isGap, others⟩ := List.forall_mem_cons.mp blank
      rw [List.cons_append, lexAt_gap isGap, ih others, Position.past_cons]

theorem lexAt_spelled (spells : Spells item text behind) :
    lexAt position (text ++ behind) = position.locate item :: lexAt (position.past text) behind := by
  obtain ⟨first, tail, rfl⟩ := List.exists_cons_of_ne_nil spells.ne_nil
  obtain ⟨notGap, leading⟩ := Lexeme.leading_of_spells spells
  have remaining : (tail ++ behind).drop ((first :: tail).length - 1) = behind := List.drop_left
  rw [lexAt, List.cons_append, lexFrom, if_neg (by simp [notGap])]
  simp only [leading, remaining]
  rcases spells.newline_or with ⟨rfl, newline⟩ | ⟨other, line⟩
  · rw [newline]
    rfl
  · rw [Position.past_of_line line]
    cases item with
    | error fault => rfl
    | ok token =>
        split <;> rename_i same
        · cases same
        · cases same
          exact absurd rfl other
        · cases same
          rfl

theorem lexAt_newline :
    lexAt position ('\n' :: rest) = .ok .newline :: lexAt (position.next '\n') rest :=
  lexAt_spelled .newline

/-- What is read from a text is what its cuts tell. -/
theorem lexes_iff : Lexes position text items ↔ lexAt position text = items := by
  constructor
  · intro lexes
    induction lexes with
    | done => exact lexAt_nil
    | gap gap _ ih => rw [lexAt_gap gap, ih]
    | item spells _ ih => rw [lexAt_spelled spells, ih]
  · rintro rfl
    induction count : text.length using Nat.strong_induction_on generalizing position text with
    | _ length ih =>
        cases text with
        | nil =>
            rw [lexAt_nil]
            exact .done
        | cons first rest =>
            cases gap : isGap first with
            | true =>
                rw [lexAt_gap gap]
                exact .gap gap (ih rest.length (by simp [← count]) rfl)
            | false =>
                obtain ⟨behind, split, spells⟩ : (Lexeme.leading first rest).Begins (first :: rest) :=
                  Lexeme.leading_begins gap
                have shorter : behind.length < length := by
                  have some := List.length_pos_iff.mpr spells.ne_nil
                  rw [← count, split, List.length_append]
                  omega
                rw [split, lexAt_spelled spells]
                exact .item spells (ih behind.length shorter rfl)

/-- Reading up to a line feed is over there, whatever comes behind it. -/
theorem Lexes.append_newline (lexes : Lexes position text items)
    (later : Lexes (position.past (text ++ ['\n'])) more others) :
    Lexes position (text ++ '\n' :: more) (items ++ .ok .newline :: others) := by
  induction lexes with
  | done => exact .item .newline later
  | gap gap _ ih => exact .gap gap (ih later)
  | @item position text behind item items spells _ ih =>
      rw [List.append_assoc, List.cons_append]
      rw [List.append_assoc, Position.past_append] at later
      exact .item spells.append (ih later)

end Intcode.Assembly
