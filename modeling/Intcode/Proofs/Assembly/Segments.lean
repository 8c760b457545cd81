import Intcode.Proofs.Assembly.Lexing

namespace Intcode.Assembly

/-- A piece of a text with the gap before it, and what is read from the piece. -/
structure Segment where
  gap : List Char
  piece : List Char
  item : Except LexFault Token

namespace Segment

def text (segment : Segment) : List Char :=
  segment.gap ++ segment.piece

/-- The text of segments that follow one another. -/
def joined (segments : List Segment) : List Char :=
  segments.flatMap text

/-- A segment that is cut out right, with something else behind it. -/
structure Fits (segment : Segment) (behind : List Char) : Prop where
  gap : ∀ char ∈ segment.gap, isGap char = true
  spells : Spells segment.item segment.piece behind

/-- What is read from segments, from a position on. -/
def itemsFrom (position : Position) : List Segment → List LexItem
  | [] => []
  | segment :: rest =>
      (position.past segment.gap).locate segment.item ::
        itemsFrom (position.past segment.text) rest

variable {position : Position} {segment : Segment} {segments before after : List Segment}

theorem joined_cons : joined (segment :: segments) = segment.text ++ joined segments :=
  List.flatMap_cons

theorem length_itemsFrom : (itemsFrom position segments).length = segments.length := by
  induction segments generalizing position with
  | nil => rfl
  | cons segment rest ih => rw [itemsFrom, List.length_cons, ih, List.length_cons]

theorem itemsFrom_getElem? :
    (itemsFrom position (before ++ segment :: after))[before.length]? =
      some ((position.past (joined before ++ segment.gap)).locate segment.item) := by
  induction before generalizing position with
  | nil => rfl
  | cons first rest ih =>
      rw [List.cons_append, itemsFrom, List.length_cons, List.getElem?_cons_succ, ih, joined_cons,
        List.append_assoc, ← Position.past_append]

end Segment

/-- A text falls into segments. Only a gap is left over. -/
theorem Lexes.exists_segments {start position : Position} {gap text : List Char}
    {items : List LexItem} (lexes : Lexes position text items)
    (blank : ∀ char ∈ gap, isGap char = true) (behindGap : start.past gap = position) :
    ∃ segments last,
      gap ++ text = Segment.joined segments ++ last ∧ (∀ char ∈ last, isGap char = true) ∧
      (∀ before segment after, segments = before ++ segment :: after →
        segment.Fits (Segment.joined after ++ last)) ∧
      items = Segment.itemsFrom start segments := by
  induction lexes generalizing start gap with
  | done => exact ⟨[], gap, by simp [Segment.joined], blank, by simp, rfl⟩
  | @gap position char rest items skipped _ ih =>
      have longer : ∀ other ∈ gap ++ [char], isGap other = true := by
        simpa [or_imp, forall_and] using ⟨blank, skipped⟩
      have moved : start.past (gap ++ [char]) = position.next char := by
        rw [Position.past_append, behindGap, Position.past_cons, Position.past_nil]
      obtain ⟨segments, last, joined, rest⟩ := ih longer moved
      exact ⟨segments, last, by rw [← joined, List.append_assoc, List.singleton_append], rest⟩
  | @item position piece behind item items spells _ ih =>
      have moved : start.past (gap ++ piece) = position.past piece := by
        rw [Position.past_append, behindGap]
      have again : (position.past piece).past [] = position.past piece := rfl
      obtain ⟨segments, last, joined, lastBlank, fit, read⟩ := ih (List.forall_mem_nil _) again
      rw [List.nil_append] at joined
      refine ⟨⟨gap, piece, item⟩ :: segments, last, ?_, lastBlank, ?_, ?_⟩
      · rw [Segment.joined_cons, joined, Segment.text, List.append_assoc, List.append_assoc]
      · intro before segment after split
        cases before with
        | nil =>
            cases split
            exact ⟨blank, joined ▸ spells⟩
        | cons first before =>
            cases split
            exact fit before segment after rfl
      · rw [Segment.itemsFrom, Segment.text, behindGap, moved, read]

/-- A place in a text from which reading goes on. -/
structure Cursor where
  position : Position
  text : List Char

namespace Cursor

def start (source : String) : Cursor :=
  { position := {}, text := source.toList }

/-- Skips a gap and reads an item, if there is one. -/
def next (cursor : Cursor) : Option LexItem × Cursor :=
  let position := cursor.position.past (cursor.text.takeWhile isGap)
  match cursor.text.dropWhile isGap with
  | [] => (none, { position, text := [] })
  | first :: rest =>
      let lexeme := Lexeme.leading first rest
      (some (position.locate lexeme.item),
        { position := position.past lexeme.text
          text := (first :: rest).drop lexeme.text.length })

/-- What is read after a number of items. -/
def answer (cursor : Cursor) : Nat → Option LexItem
  | 0 => cursor.next.1
  | count + 1 => cursor.next.2.answer count

variable {cursor : Cursor}

/-- At the end nothing is read; otherwise the first of the items that are there is, and the cursor
moves on to the others. -/
theorem next_cases (cursor : Cursor) :
    (∃ position, cursor.next = (none, { position, text := [] }) ∧
      lexAt cursor.position cursor.text = []) ∨
    ∃ item rest, cursor.next = (some item, rest) ∧
      lexAt cursor.position cursor.text = item :: lexAt rest.position rest.text := by
  have split := List.takeWhile_append_dropWhile (p := isGap) (l := cursor.text)
  have skipped : lexAt cursor.position (cursor.text.takeWhile isGap ++ cursor.text.dropWhile isGap) =
      _ := lexAt_gaps fun _ => List.mem_takeWhile_imp
  rw [split] at skipped
  unfold next
  cases left : cursor.text.dropWhile isGap with
  | nil =>
      rw [left, lexAt_nil] at skipped
      exact .inl ⟨_, rfl, skipped⟩
  | cons first rest =>
      have notGap : isGap first = false := by
        have head := List.head?_dropWhile_not isGap cursor.text
        rwa [left] at head
      obtain ⟨behind, pieces, spells⟩ : (Lexeme.leading first rest).Begins (first :: rest) :=
        Lexeme.leading_begins notGap
      refine .inr ⟨_, _, rfl, ?_⟩
      rw [skipped, left, pieces, lexAt_spelled spells, List.drop_left]

/-- The answers are the items of the text in order, and nothing after them. -/
theorem answer_eq (cursor : Cursor) (count : Nat) :
    cursor.answer count = (lexAt cursor.position cursor.text)[count]? := by
  induction count generalizing cursor with
  | zero =>
      rcases cursor.next_cases with ⟨_, next, none⟩ | ⟨item, rest, next, items⟩
      · rw [answer, next, none, List.getElem?_nil]
      · rw [answer, next, items, List.getElem?_cons_zero]
  | succ count ih =>
      rcases cursor.next_cases with ⟨_, next, none⟩ | ⟨item, rest, next, items⟩
      · rw [answer, next, ih, none, lexAt_nil, List.getElem?_nil, List.getElem?_nil]
      · rw [answer, next, ih, items, List.getElem?_cons_succ]

end Cursor

/-- Every character of a text is in a gap or in the piece of one item, and each item is read when
its turn comes. What follows the last one is a gap, and nothing more is ever read. -/
theorem every_character_is_accounted_for (source : String) :
    ∃ (segments : List Segment) (last : List Char),
      source.toList = Segment.joined segments ++ last ∧ (∀ char ∈ last, isGap char = true) ∧
      (lex source).length = segments.length ∧
      (∀ before segment after, segments = before ++ segment :: after →
        (∀ char ∈ segment.gap, isGap char = true) ∧ segment.piece ≠ [] ∧
        Spells segment.item segment.piece (Segment.joined after ++ last) ∧
        (Cursor.start source).answer before.length =
          some (segment.item.mapError fun fault =>
            let ahead := Segment.joined before ++ segment.gap
            { fault
              line := 1 + ahead.count '\n'
              column := 1 + Text.byteLength (ahead.rtakeWhile (· ≠ '\n')) })) ∧
      (∀ count, (Cursor.start source).answer count = (lex source)[count]?) ∧
      ∀ count, segments.length ≤ count → (Cursor.start source).answer count = none := by
  have answers (count : Nat) : (Cursor.start source).answer count = (lex source)[count]? :=
    Cursor.answer_eq _ count
  have lexes : Lexes {} source.toList (lex source) := lexes_iff.mpr rfl
  obtain ⟨segments, last, joined, blank, fit, read⟩ :=
    lexes.exists_segments (List.forall_mem_nil _) Position.past_nil
  have length : (lex source).length = segments.length := by rw [read, Segment.length_itemsFrom]
  refine ⟨segments, last, joined, blank, length, ?_, answers, fun count beyond => ?_⟩
  · intro before segment after split
    obtain ⟨gap, spells⟩ := fit before segment after split
    refine ⟨gap, spells.ne_nil, spells, ?_⟩
    rw [answers, read, split, Segment.itemsFrom_getElem?, Position.past_start]
    rfl
  · rw [answers, List.getElem?_eq_none (by omega)]

end Intcode.Assembly
