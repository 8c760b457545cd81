import Intcode.Assembly.Lexer
import Intcode.Proofs.Word.Decimal
import Mathlib.Data.List.TakeWhile

namespace Intcode.Assembly

/-- What comes behind does not go on with characters of this kind. -/
def Stops (check : Char → Bool) (behind : List Char) : Prop :=
  ∀ char ∈ behind.head?, check char = false

section Stops

variable {check : Char → Bool} {text behind more : List Char}

theorem stops_dropWhile (check : Char → Bool) (text : List Char) : Stops check (text.dropWhile check) := by
  intro char head
  have first := List.head?_dropWhile_not check text
  rw [Option.mem_def.mp head] at first
  exact first

theorem takeWhile_of_stops (all : ∀ char ∈ text, check char = true) (stops : Stops check behind) :
    (text ++ behind).takeWhile check = text := by
  rw [List.takeWhile_append_of_pos all]
  cases behind with
  | nil => simp
  | cons first rest =>
      rw [List.takeWhile_cons_of_neg (by simp [stops first rfl]), List.append_nil]

theorem dropWhile_of_stops (all : ∀ char ∈ text, check char = true) (stops : Stops check behind) :
    (text ++ behind).dropWhile check = behind := by
  rw [List.dropWhile_append_of_pos all]
  cases behind with
  | nil => rfl
  | cons first rest => rw [List.dropWhile_cons_of_neg (by simp [stops first rfl])]

/-- Something else may come behind, if it begins the same way or with a line feed. -/
theorem Stops.transfer (stops : Stops check behind) (fails : check '\n' = false)
    (heads : ∀ char ∈ more.head?, char = '\n' ∨ char ∈ behind.head?) : Stops check more := by
  intro char member
  rcases heads char member with rfl | same
  · exact fails
  · exact stops char same

theorem nil_or_newline_of_stops (stops : Stops (· ≠ '\n') text) :
    text = [] ∨ ∃ rest, text = '\n' :: rest := by
  cases text with
  | nil => exact .inl rfl
  | cons first rest =>
      have newline : first = '\n' := by simpa using stops first rfl
      exact .inr ⟨rest, by rw [newline]⟩

end Stops

/-- At least one word character, and nothing else. -/
def IsWord (text : List Char) : Prop :=
  text ≠ [] ∧ ∀ char ∈ text, isWordChar char = true

/-- Word characters behind a digit or a minus sign. -/
inductive IsNumberWord : List Char → Prop
  | unsigned {first : Char} {rest : List Char} (digit : first.isDigit = true)
      (all : ∀ char ∈ rest, isWordChar char = true) : IsNumberWord (first :: rest)
  | signed {rest : List Char} (all : ∀ char ∈ rest, isWordChar char = true) :
      IsNumberWord ('-' :: rest)

/-- The characters that stand alone, and those that a longer lexeme begins with. -/
def beginsLexeme (char : Char) : Bool :=
  ['\n', ':', '=', '#', '@', '-'].contains char || isWordChar char

/-- An item is spelled by a text, with something else behind it. -/
inductive Spells : Except LexFault Token → (text behind : List Char) → Prop
  | newline {behind : List Char} : Spells (.ok .newline) ['\n'] behind
  | colon {behind : List Char} : Spells (.ok .colon) [':'] behind
  | equals {behind : List Char} : Spells (.ok .equals) ['='] behind
  | arrow {behind : List Char} : Spells (.ok .arrow) ['-', '>'] behind
  | comment {text behind : List Char} (line : ∀ char ∈ text, char ≠ '\n')
      (ends : Stops (· ≠ '\n') behind) :
      Spells (.ok (.comment (String.ofList ('#' :: text)))) ('#' :: text) behind
  | word {text behind : List Char} (word : IsWord text)
      (notDigit : ∀ char ∈ text.head?, char.isDigit = false) (ends : Stops isWordChar behind) :
      Spells (.ok (.word (String.ofList text))) text behind
  | labelRef {text behind : List Char} (word : IsWord text) (ends : Stops isWordChar behind) :
      Spells (.ok (.labelRef (String.ofList text))) ('@' :: text) behind
  | number {text behind : List Char} {value : Word} (word : IsNumberWord text)
      (ends : Stops isWordChar behind) (denotes : Word.Denotes text value.toInt) :
      Spells (.ok (.number value)) text behind
  /-- A number word that is no numeral of a machine word, if it does not begin an arrow. -/
  | invalidNumber {text behind : List Char} (word : IsNumberWord text)
      (ends : Stops isWordChar behind) (noArrow : text = ['-'] → behind.head? ≠ some '>')
      (other : ∀ value : Word, ¬ Word.Denotes text value.toInt) :
      Spells (.error .invalidNumber) text behind
  | emptyLabelReference {behind : List Char} (ends : Stops isWordChar behind) :
      Spells (.error .emptyLabelReference) ['@'] behind
  | unexpectedToken {char : Char} {behind : List Char} (notGap : isGap char = false)
      (other : beginsLexeme char = false) : Spells (.error .unexpectedToken) [char] behind

namespace Lexeme

variable {first : Char} {rest text behind more : List Char} {item : Except LexFault Token}

/-- A text begins with a lexeme. -/
def Begins (lexeme : Lexeme) (text : List Char) : Prop :=
  ∃ behind, text = lexeme.text ++ behind ∧ Spells lexeme.item lexeme.text behind

theorem run_append (first : Char) (rest : List Char) :
    first :: rest = run first rest ++ rest.dropWhile isWordChar := by
  rw [run, List.cons_append, List.takeWhile_append_dropWhile]

theorem isWordChar_of_isDigit {char : Char} (digit : char.isDigit = true) :
    isWordChar char = true := by
  simp [isWordChar, Char.isAlphanum, digit]

theorem ofNumber_begins (word : IsNumberWord (run first rest))
    (noArrow : first = '-' → rest.head? ≠ some '>') :
    (ofNumber (run first rest)).Begins (first :: rest) := by
  refine ⟨rest.dropWhile isWordChar, ?_, ?_⟩
  · unfold ofNumber
    split <;> exact run_append first rest
  · unfold ofNumber
    cases read : Word.parse (run first rest) with
    | ok value => exact .number word (stops_dropWhile _ _) (Word.parse_eq_ok_iff.mp read)
    | error reason =>
        refine .invalidNumber word (stops_dropWhile _ _) (fun alone => ?_) fun value denotes => ?_
        · obtain ⟨minus, none⟩ := List.cons.inj alone
          have whole := List.takeWhile_append_dropWhile (p := isWordChar) (l := rest)
          rw [none, List.nil_append] at whole
          rw [whole]
          exact noArrow minus
        · rw [Word.parse_eq_ok_iff.mpr denotes] at read
          cases read

theorem leading_begins (notGap : isGap first = false) :
    (leading first rest).Begins (first :: rest) := by
  unfold leading
  split
  · rename_i newline
    exact ⟨rest, by simp, by rw [newline]; exact .newline⟩
  split
  · rename_i colon
    exact ⟨rest, by simp, by rw [colon]; exact .colon⟩
  split
  · rename_i equals
    exact ⟨rest, by simp, by rw [equals]; exact .equals⟩
  split
  · rename_i hash
    refine ⟨rest.dropWhile (· ≠ '\n'), by simp, ?_⟩
    rw [hash]
    have within (char : Char) (member : char ∈ rest.takeWhile (· ≠ '\n')) : char ≠ '\n' := by
      simpa using List.mem_takeWhile_imp member
    exact .comment within (stops_dropWhile _ _)
  split
  · rename_i at'
    dsimp only
    split <;> rename_i tail
    · have none : rest.takeWhile isWordChar = [] := List.isEmpty_iff.mp tail
      refine ⟨rest.dropWhile isWordChar, run_append first rest, ?_⟩
      rw [run, none, at']
      exact .emptyLabelReference (stops_dropWhile _ _)
    · refine ⟨rest.dropWhile isWordChar, run_append first rest, ?_⟩
      rw [run, at']
      exact .labelRef ⟨fun none => tail (List.isEmpty_iff.mpr none), fun _ => List.mem_takeWhile_imp⟩
        (stops_dropWhile _ _)
  split
  · rename_i arrow
    simp only [Bool.and_eq_true, decide_eq_true_eq] at arrow
    obtain ⟨minus, more⟩ := arrow
    obtain ⟨behind, rfl⟩ := List.head?_eq_some_iff.mp more
    exact ⟨behind, by rw [minus]; rfl, .arrow⟩
  split
  · rename_i noArrow starts
    simp only [Bool.and_eq_true, decide_eq_true_eq, not_and] at noArrow
    simp only [Bool.or_eq_true, decide_eq_true_eq] at starts
    refine ofNumber_begins ?_ noArrow
    rcases starts with rfl | digit
    · exact .signed fun _ => List.mem_takeWhile_imp
    · exact .unsigned digit fun _ => List.mem_takeWhile_imp
  split
  · rename_i noNumber isWord
    simp only [Bool.or_eq_true, decide_eq_true_eq, not_or] at noNumber
    refine ⟨rest.dropWhile isWordChar, run_append first rest, ?_⟩
    refine .word ⟨List.cons_ne_nil _ _, ?_⟩ ?_ (stops_dropWhile _ _)
    · intro char member
      rcases List.mem_cons.mp member with rfl | later
      · exact isWord
      · exact List.mem_takeWhile_imp later
    · intro char head
      cases head
      exact Bool.eq_false_iff.mpr noNumber.2
  · rename_i noNumber noWord
    simp only [Bool.or_eq_true, decide_eq_true_eq, not_or] at noNumber
    refine ⟨rest, by simp, .unexpectedToken notGap ?_⟩
    simp_all [beginsLexeme]

theorem ne_of_isWordChar {char other : Char} (word : isWordChar char = true)
    (fails : isWordChar other = false) : char ≠ other := by
  rintro rfl
  rw [word] at fails
  cases fails

theorem isGap_of_isWordChar {char : Char} (word : isWordChar char = true) : isGap char = false := by
  have other {gap : Char} (fails : isWordChar gap = false) : char ≠ gap :=
    ne_of_isWordChar word fails
  simp [isGap, other (rfl : isWordChar ' ' = false), other (rfl : isWordChar '\t' = false),
    other (rfl : isWordChar '\r' = false)]

/-- A word character begins a number or a word. -/
theorem leading_word (word : isWordChar first = true) :
    leading first rest =
      if first.isDigit then ofNumber (run first rest)
      else { text := run first rest, item := .ok (.word (String.ofList (run first rest))) } := by
  have other {char : Char} (fails : isWordChar char = false) : first ≠ char :=
    ne_of_isWordChar word fails
  unfold leading
  rw [if_neg (other rfl), if_neg (other rfl), if_neg (other rfl), if_neg (other rfl),
    if_neg (other rfl)]
  simp only [other (rfl : isWordChar '-' = false), word, decide_false, Bool.false_and, Bool.false_or,
    Bool.false_eq_true, if_false, if_true]

theorem leading_minus (noArrow : rest.head? ≠ some '>') :
    leading '-' rest = ofNumber (run '-' rest) := by
  simp [leading, noArrow]

theorem ofNumber_number {value : Word} (denotes : Word.Denotes text value.toInt) :
    ofNumber text = { text, item := .ok (.number value) } := by
  rw [ofNumber, Word.parse_eq_ok_iff.mpr denotes]

theorem ofNumber_invalid (other : ∀ value : Word, ¬ Word.Denotes text value.toInt) :
    ofNumber text = { text, item := .error .invalidNumber } := by
  unfold ofNumber
  cases read : Word.parse text with
  | ok value => exact absurd (Word.parse_eq_ok_iff.mp read) (other value)
  | error reason => rfl

theorem run_of_stops (all : ∀ char ∈ text, isWordChar char = true) (ends : Stops isWordChar behind) :
    run first (text ++ behind) = first :: text := by
  rw [run, takeWhile_of_stops all ends]

theorem leading_numberWord (word : IsNumberWord (first :: text)) (ends : Stops isWordChar behind)
    (noArrow : first = '-' → (text ++ behind).head? ≠ some '>') :
    isGap first = false ∧ leading first (text ++ behind) = ofNumber (first :: text) := by
  cases word with
  | unsigned digit all =>
      have word := isWordChar_of_isDigit digit
      rw [leading_word word, if_pos digit, run_of_stops all ends]
      exact ⟨isGap_of_isWordChar word, rfl⟩
  | signed all =>
      rw [leading_minus (noArrow rfl), run_of_stops all ends]
      exact ⟨rfl, rfl⟩

/-- The lexeme that a text is spelled to begin with is the one that is read there. -/
theorem leading_of_spells (spells : Spells item (first :: text) behind) :
    isGap first = false ∧ leading first (text ++ behind) = { text := first :: text, item } := by
  cases spells with
  | newline | colon | equals | arrow => exact ⟨rfl, by simp [leading]⟩
  | comment line ends =>
      have all : ∀ char ∈ text, decide (char ≠ '\n') = true := fun char member =>
        decide_eq_true (line char member)
      unfold leading
      rw [if_neg (by decide), if_neg (by decide), if_neg (by decide), if_pos rfl,
        takeWhile_of_stops all ends]
      exact ⟨rfl, rfl⟩
  | word word notDigit ends =>
      obtain ⟨isWord, all⟩ := List.forall_mem_cons.mp word.2
      rw [leading_word isWord, notDigit first rfl, run_of_stops all ends]
      exact ⟨isGap_of_isWordChar isWord, rfl⟩
  | labelRef word ends =>
      refine ⟨rfl, ?_⟩
      simp [leading, run_of_stops word.2 ends, word.1]
  | number word ends denotes =>
      refine (leading_numberWord word ends ?_).imp_right fun read => ?_
      · rintro rfl
        obtain ⟨⟨some, digits⟩, _⟩ := Word.denotes_negative_iff.mp denotes
        obtain ⟨digit, more, rfl⟩ := List.exists_cons_of_ne_nil some
        intro arrow
        cases arrow
        exact absurd (digits '>' List.mem_cons_self) (by decide)
      · rw [read, ofNumber_number denotes]
  | invalidNumber word ends noArrow other =>
      refine (leading_numberWord word ends ?_).imp_right fun read => ?_
      · rintro rfl
        cases text with
        | nil => exact noArrow rfl
        | cons second more =>
            intro arrow
            cases arrow
            cases word with
            | unsigned digit => exact absurd digit (by decide)
            | signed all => exact absurd (all '>' List.mem_cons_self) (by decide)
      · rw [read, ofNumber_invalid other]
  | emptyLabelReference ends =>
      have none : behind.takeWhile isWordChar = [] :=
        takeWhile_of_stops (List.forall_mem_nil _) ends
      exact ⟨rfl, by simp [leading, run, none]⟩
  | unexpectedToken notGap other =>
      refine ⟨notGap, ?_⟩
      obtain ⟨marks, word⟩ := Bool.or_eq_false_iff.mp other
      have digit : first.isDigit = false := by
        rw [Bool.eq_false_iff]
        intro digit
        rw [isWordChar_of_isDigit digit] at word
        cases word
      simp only [List.contains_cons, List.contains_nil, Bool.or_false, Bool.or_eq_false_iff,
        beq_eq_false_iff_ne] at marks
      simp [leading, marks, word, digit]

end Lexeme

end Intcode.Assembly
