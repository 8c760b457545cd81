import Intcode.Proofs.Assembly.Extent
import Intcode.Proofs.Assembly.Lexing
import Mathlib.Data.List.Chain

namespace Intcode.Assembly

namespace Token

def text : Token → List Char
  | comment text => text.toList
  | newline => ['\n']
  | word name => name.toList
  | labelRef name => '@' :: name.toList
  | number value => value.digits
  | arrow => ['-', '>']
  | colon => [':']
  | equals => ['=']

def IsPrintable : Token → Prop
  | comment text => text.toList.head? = some '#' ∧ '\n' ∉ text.toList
  | word name => IsWord name.toList ∧ ∀ char ∈ name.toList.head?, char.isDigit = false
  | labelRef name => IsWord name.toList
  | _ => True

end Token

/-- Tokens that can be written. A comment is the last token of its line. -/
structure Printable (row : List Token) : Prop where
  each : ∀ token ∈ row, token.IsPrintable
  comments : row.IsChain fun token next => token.isComment = true → next = .newline

/-- What is written between two tokens. Nothing stands in front of a line feed, and behind it the
next line begins with a margin. -/
def between (margin : List Char) : Token → Token → List Char
  | _, .newline => []
  | .newline, _ => margin
  | _, _ => [' ']

def written (margin : List Char) : List Token → List Char
  | [] => []
  | [token] => token.text
  | token :: next :: rest =>
      token.text ++ (between margin token next ++ written margin (next :: rest))

variable {margin text behind : List Char} {token next : Token} {row rest : List Token}
  {position : Position}

theorem isNumberWord_digits (value : Word) : IsNumberWord value.digits := by
  have digits (char : Char) (member : char ∈ Nat.toDigits 10 value.toInt.natAbs) :
      char.isDigit = true :=
    Nat.isDigit_of_mem_toDigits (by decide) (by decide) member
  unfold Word.digits
  split
  · exact .signed fun char member => Lexeme.isWordChar_of_isDigit (digits char member)
  · obtain ⟨first, others, split⟩ :=
      List.exists_cons_of_ne_nil (Nat.toDigits_ne_nil (b := 10) (n := value.toInt.natAbs))
    rw [split] at digits ⊢
    obtain ⟨digit, more⟩ := List.forall_mem_cons.mp digits
    exact .unsigned digit fun char member => Lexeme.isWordChar_of_isDigit (more char member)

theorem Token.IsPrintable.spells (printable : token.IsPrintable)
    (ends : token ≠ .newline → Stops isWordChar behind)
    (line : token.isComment = true → Stops (· ≠ '\n') behind) :
    Spells (.ok token) token.text behind := by
  cases token with
  | comment text =>
      obtain ⟨hash, inLine⟩ := printable
      obtain ⟨body, split⟩ := List.head?_eq_some_iff.mp hash
      have same : text = String.ofList ('#' :: body) := by rw [← split, String.ofList_toList]
      rw [split, List.mem_cons, not_or] at inLine
      rw [Token.text, split, same]
      exact .comment (fun char member newline => inLine.2 (newline ▸ member)) (line rfl)
  | newline => exact .newline
  | word name =>
      have spells := Spells.word printable.1 printable.2 (ends (by simp))
      rwa [String.ofList_toList] at spells
  | labelRef name =>
      have spells := Spells.labelRef printable (ends (by simp))
      rwa [String.ofList_toList] at spells
  | number value =>
      exact .number (isNumberWord_digits value) (ends (by simp)) (Word.denotes_digits value)
  | arrow => exact .arrow
  | colon => exact .colon
  | equals => exact .equals

theorem isPrintable_of_spells (spells : Spells (.ok token) text behind) : token.IsPrintable := by
  cases spells with
  | comment line =>
      refine ⟨by rw [String.toList_ofList, List.head?_cons], ?_⟩
      rw [String.toList_ofList, List.mem_cons, not_or]
      exact ⟨by decide, fun newline => line '\n' newline rfl⟩
  | word word notDigit =>
      rw [Token.IsPrintable, String.toList_ofList]
      exact ⟨word, notDigit⟩
  | labelRef word =>
      rw [Token.IsPrintable, String.toList_ofList]
      exact word
  | newline | number | arrow | colon | equals => exact trivial

theorem printable_cons :
    Printable (token :: rest) ↔
      token.IsPrintable ∧ (∀ next ∈ rest.head?, token.isComment = true → next = .newline) ∧
        Printable rest := by
  constructor
  · rintro ⟨each, comments⟩
    obtain ⟨first, others⟩ := List.forall_mem_cons.mp each
    obtain ⟨ends, chain⟩ := List.isChain_cons.mp comments
    exact ⟨first, ends, others, chain⟩
  · rintro ⟨first, ends, others, chain⟩
    exact ⟨List.forall_mem_cons.mpr ⟨first, others⟩, List.isChain_cons.mpr ⟨ends, chain⟩⟩

theorem isGap_of_mem_between (blank : ∀ char ∈ margin, isGap char = true) :
    ∀ char ∈ between margin token next, isGap char = true := by
  unfold between
  split
  · exact List.forall_mem_nil _
  · exact blank
  · simp [isGap]

theorem between_eq (other : token ≠ .newline) (same : next ≠ .newline) :
    between margin token next = [' '] := by
  unfold between
  split
  · exact absurd rfl same
  · exact absurd rfl other
  · rfl

theorem head_written_newline : (written margin (.newline :: rest)).head? = some '\n' := by
  cases rest <;> rfl

theorem head_behind (other : token ≠ .newline) :
    (between margin token next ++ written margin (next :: rest)).head? =
      some (if next = .newline then '\n' else ' ') := by
  by_cases ends : next = .newline
  · rw [if_pos ends, ends]
    exact head_written_newline
  · rw [if_neg ends, between_eq other ends]
    rfl

theorem stops_nil {check : Char → Bool} : Stops check [] := by
  intro char none
  cases none

theorem stops_of_head {check : Char → Bool} {char : Char} (head : behind.head? = some char)
    (fails : check char = false) : Stops check behind := by
  intro other member
  rw [head] at member
  cases member
  exact fails

theorem lexAt_written (blank : ∀ char ∈ margin, isGap char = true) (printable : Printable row) :
    lexAt position (written margin row) = row.map .ok := by
  induction row generalizing position with
  | nil => exact lexAt_nil
  | cons token rest ih =>
      obtain ⟨first, ends, others⟩ := printable_cons.mp printable
      cases rest with
      | nil =>
          have spells : Spells (.ok token) token.text [] :=
            first.spells (fun _ => stops_nil) (fun _ => stops_nil)
          have read : lexAt position (token.text ++ []) = .ok token :: lexAt _ [] :=
            lexAt_spelled spells
          rwa [List.append_nil, lexAt_nil] at read
      | cons next rest =>
          -- Only a line feed may have a letter behind it, and a space behind a comment would be
          -- part of it.
          have spells : Spells (.ok token) token.text
              (between margin token next ++ written margin (next :: rest)) := by
            refine first.spells (fun other => ?_) (fun comment => ?_)
            · refine stops_of_head (head_behind other) ?_
              split <;> decide
            · have other : token ≠ .newline := by
                rintro rfl
                cases comment
              have newline : next = .newline := ends next rfl comment
              exact stops_of_head (head_behind other) (by simp [newline])
          rw [written, lexAt_spelled spells, lexAt_gaps (isGap_of_mem_between blank), ih others]
          rfl

/-- At the end of a line, which may end the text, the next item is a line feed if anything. -/
theorem head_of_stops (stops : Stops (· ≠ '\n') behind) :
    ∀ item ∈ (lexAt position behind).head?, item = .ok .newline := by
  intro item head
  rcases nil_or_newline_of_stops stops with rfl | ⟨rest, rfl⟩
  · rw [lexAt_nil] at head
    cases head
  · rw [lexAt_newline] at head
    cases head
    rfl

theorem printable_of_lexes {items : List LexItem} (lexes : Lexes position text items)
    (read : items = row.map .ok) : Printable row := by
  induction lexes generalizing row with
  | done =>
      rw [List.map_eq_nil_iff.mp read.symm]
      exact ⟨List.forall_mem_nil _, .nil⟩
  | gap _ _ ih => exact ih read
  | @item position piece behind item items spells lexes ih =>
      obtain ⟨token, rest, rfl, located, others⟩ := List.map_eq_cons_iff.mp read.symm
      obtain rfl : item = .ok token := mapError_eq_ok located.symm
      refine printable_cons.mpr ⟨isPrintable_of_spells spells, ?_, ih others.symm⟩
      intro next head comment
      cases spells with
      | comment _ ends =>
          have read := lexes_iff.mp lexes
          have later : Except.ok next ∈ items.head? := by
            rw [← others, List.head?_map]
            exact Option.mem_map_of_mem _ head
          rw [← read] at later
          exact Except.ok.inj (head_of_stops ends _ later)
      | _ => cases comment

/-- Tokens that can be written are read back, and all tokens that are read from a text can be
written. -/
theorem lexing_undoes_writing (blank : ∀ char ∈ margin, isGap char = true) :
    (∀ row, Printable row → tokens (String.ofList (written margin row)) = .ok row) ∧
      ∀ source row, tokens source = .ok row →
        Printable row ∧ tokens (String.ofList (written margin row)) = .ok row := by
  have readBack (row : List Token) (printable : Printable row) :
      tokens (String.ofList (written margin row)) = .ok row := by
    have items : lexAt {} (written margin row) = row.map .ok := lexAt_written blank printable
    rw [tokens, lex, String.toList_ofList]
    exact (congrArg (List.mapM id) items).trans (mapM_id_eq_ok_iff.mpr rfl)
  refine ⟨readBack, fun source row lexed => ?_⟩
  have lexes : Lexes {} source.toList (lex source) := lexes_iff.mpr rfl
  have printable := printable_of_lexes lexes (mapM_id_eq_ok_iff.mp lexed)
  exact ⟨printable, readBack row printable⟩

/-- A name that looks like a number, the smallest word, and a comment that takes the blanks at the
end of its line. -/
def remarkable : List Token :=
  [.word "end", .colon, .comment "#a \r", .newline, .newline, .labelRef "9",
    .number (-9223372036854775808), .arrow, .word "_9"]

theorem remarkable_is_read_back :
    tokens "\tend:#a \r\n\n@9 -9223372036854775808->_9" = .ok remarkable ∧
      Printable remarkable ∧
      String.ofList (written [' '] remarkable) =
        "end : #a \r\n\n @9 -9223372036854775808 -> _9" ∧
      tokens (String.ofList (written [' '] remarkable)) = .ok remarkable := by
  have blank : ∀ char ∈ [' '], isGap char = true := List.forall_mem_singleton.mpr rfl
  have lexed : tokens "\tend:#a \r\n\n@9 -9223372036854775808->_9" = .ok remarkable := by
    decide +kernel
  obtain ⟨printable, _⟩ := (lexing_undoes_writing blank).2 _ _ lexed
  exact ⟨lexed, printable, by decide +kernel, (lexing_undoes_writing blank).1 _ printable⟩

end Intcode.Assembly
