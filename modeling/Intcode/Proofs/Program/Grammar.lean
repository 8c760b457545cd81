import Intcode.Proofs.Program.Text
import Mathlib.Data.List.Forall2

namespace Intcode

namespace Text

theorem byteLength_eq (text : List Char) : byteLength text = (String.ofList text).utf8ByteSize := by
  induction text with
  | nil => rfl
  | cons char rest ih =>
      rw [byteLength_cons, ih, String.ofList_cons, String.utf8ByteSize_append,
        String.utf8ByteSize_singleton]

theorem byteLength_sub_trimStart (text : List Char) :
    byteLength text - byteLength (trimStart text) = byteLength (text.takeWhile isBlank) := by
  have whole := congrArg byteLength (List.takeWhile_append_dropWhile (p := isBlank) (l := text))
  rw [byteLength_append] at whole
  rw [← whole, trimStart, Nat.add_sub_cancel]

end Text

namespace Program

/-- The pieces between the commas of a text, the blanks around the whole text taken off. -/
def pieces (source : String) : List (List Char) :=
  (Text.trim source.toList).splitOn ','

/-- A piece gives the word of its numeral, with blanks around it or without. -/
def Gives (piece : List Char) (word : Word) : Prop :=
  Word.Denotes (Text.trim piece) word.toInt

/-- Pieces as they stand in front of another one, each with its comma. -/
def ahead (earlier : List (List Char)) : List Char :=
  earlier.flatMap (· ++ [','])

/-- What an error says about a text: the piece is the first that gives no word, and it is the part
of the text between the two positions. -/
structure Blames (source : String) (error : PieceError) (earlier : List (List Char))
    (piece : List Char) (later : List (List Char)) (front behind : String) : Prop where
  notBlank : ∃ char ∈ source.toList, Text.isBlank char = false
  pieces : pieces source = earlier ++ piece :: later
  giveWords : ∀ former ∈ earlier, ∃ word, Gives former word
  givesNone : ∀ word, ¬ Gives piece word
  index : error.index = earlier.length
  fault : error.fault = .emptyToken ↔ Text.trim piece = []
  parts : source = front ++ String.ofList piece ++ behind
  start : error.start = front.utf8ByteSize
  stop : error.stop = (front ++ String.ofList piece).utf8ByteSize
  front : front.toList = source.toList.takeWhile Text.isBlank ++ ahead earlier

variable {piece : List Char} {fault : PieceFault} {word : Word} {words : List Word}
  {index start : Nat} {error : PieceError}

theorem not_gives_of_blank (blank : Text.trim piece = []) (word : Word) : ¬ Gives piece word := by
  rw [Gives, blank, ← Word.parse_eq_ok_iff]
  intro read
  cases read

theorem readPiece_eq_ok_iff : readPiece piece = .ok word ↔ Gives piece word := by
  unfold readPiece
  dsimp only
  split <;> rename_i blank
  · have none := not_gives_of_blank (List.isEmpty_iff.mp blank) word
    simp [none]
  · rw [Gives, ← Word.parse_eq_ok_iff]
    cases Word.parse (Text.trim piece) <;> simp

theorem gives_none_of_readPiece (failed : readPiece piece = .error fault) (word : Word) :
    ¬ Gives piece word := by
  rw [← readPiece_eq_ok_iff, failed]
  intro read
  cases read

theorem fault_of_readPiece (failed : readPiece piece = .error fault) :
    fault = .emptyToken ↔ Text.trim piece = [] := by
  unfold readPiece at failed
  dsimp only at failed
  split at failed <;> rename_i blank <;> rw [List.isEmpty_iff] at blank
  · cases failed
    simp [blank]
  · split at failed <;> cases failed
    simp [blank]

theorem readPieces_eq_ok_iff {pieces : List (List Char)} (index start : Nat) :
    readPieces index start pieces = .ok words ↔ List.Forall₂ Gives pieces words := by
  induction pieces generalizing index start words with
  | nil => simp [readPieces, eq_comm]
  | cons piece rest ih =>
      rw [List.forall₂_cons_left_iff, readPieces]
      cases read : readPiece piece with
      | error fault =>
          have none := gives_none_of_readPiece read
          simp [none]
      | ok word =>
          have gives (other : Word) : Gives piece other ↔ word = other := by
            rw [← readPiece_eq_ok_iff, read, Except.ok.injEq]
          simp only [gives, ← ih (index + 1) (start + Text.byteLength piece + 1)]
          cases readPieces (index + 1) (start + Text.byteLength piece + 1) rest <;>
            simp [Except.map, eq_comm]

/-- An error of the reading is that of the first piece that gives no word. -/
theorem readPieces_error {pieces : List (List Char)}
    (failed : readPieces index start pieces = .error error) :
    ∃ earlier piece later, pieces = earlier ++ piece :: later ∧
      (∀ former ∈ earlier, ∃ word, Gives former word) ∧ readPiece piece = .error error.fault ∧
      error.index = index + earlier.length ∧
      error.start = start + Text.byteLength (ahead earlier) ∧
      error.stop = error.start + Text.byteLength piece := by
  induction pieces generalizing index start with
  | nil => cases failed
  | cons first rest ih =>
      rw [readPieces] at failed
      cases read : readPiece first with
      | error fault =>
          rw [read] at failed
          cases failed
          exact ⟨[], first, rest, rfl, List.forall_mem_nil _, read, rfl, rfl, rfl⟩
      | ok word =>
          have failedLater :
              readPieces (index + 1) (start + Text.byteLength first + 1) rest = .error error := by
            rw [read] at failed
            dsimp only at failed
            cases readRest : readPieces (index + 1) (start + Text.byteLength first + 1) rest with
            | error other => rwa [readRest] at failed
            | ok words =>
                rw [readRest] at failed
                cases failed
          obtain ⟨earlier, piece, later, rfl, give, bad, place, left, right⟩ := ih failedLater
          have width : Text.byteLength (ahead (first :: earlier)) =
              Text.byteLength first + 1 + Text.byteLength (ahead earlier) := by
            rw [ahead, List.flatMap_cons, Text.byteLength_append, Text.byteLength_append]
            rfl
          refine ⟨first :: earlier, piece, later, rfl, ?_, bad, ?_, ?_, right⟩
          · exact List.forall_mem_cons.mpr ⟨⟨word, readPiece_eq_ok_iff.mp read⟩, give⟩
          · rw [place, List.length_cons]
            omega
          · rw [left, width]
            omega

/-- What the pieces in front, the piece and those behind it were cut from. -/
theorem intercalate_eq (earlier : List (List Char)) (piece : List Char) (later : List (List Char)) :
    ∃ behind, [','].intercalate (earlier ++ piece :: later) = ahead earlier ++ (piece ++ behind) := by
  induction earlier with
  | nil =>
      cases later with
      | nil => exact ⟨[], by simp [ahead]⟩
      | cons next more =>
          refine ⟨',' :: [','].intercalate (next :: more), ?_⟩
          rw [List.nil_append, List.intercalate_cons_cons]
          simp [ahead]
  | cons first rest ih =>
      obtain ⟨behind, joined⟩ := ih
      refine ⟨behind, ?_⟩
      obtain ⟨second, more, same⟩ : ∃ second more, rest ++ piece :: later = second :: more :=
        List.exists_cons_of_ne_nil (by simp)
      rw [List.cons_append, same, List.intercalate_cons_cons, ← same, joined, ahead, ahead,
        List.flatMap_cons]
      simp

theorem parse_of_blank {source : String} (blank : Text.trim source.toList = []) :
    parse source = .ok ⟨[]⟩ := by
  simp [parse, blank]

theorem parse_of_notBlank {source : String} (notBlank : Text.trim source.toList ≠ []) :
    parse source =
      (readPieces 0 (Text.byteLength (source.toList.takeWhile Text.isBlank)) (pieces source)).map
        Program.mk := by
  have some : (Text.trim source.toList).isEmpty = false := by simpa using notBlank
  simp only [parse, some, Bool.false_eq_true, if_false, Text.byteLength_sub_trimStart, pieces]

theorem parse_eq_ok_iff {source : String} {program : Program} :
    parse source = .ok program ↔
      ((∀ char ∈ source.toList, Text.isBlank char = true) ∧ program.words = []) ∨
        List.Forall₂ Gives (pieces source) program.words := by
  rw [← Text.trim_eq_nil_iff]
  by_cases blank : Text.trim source.toList = []
  · have alone : pieces source = [[]] := by
      rw [pieces, blank]
      rfl
    have none (word : Word) : ¬ Gives [] word := not_gives_of_blank rfl word
    rw [parse_of_blank blank]
    cases program
    simp [blank, alone, none, List.forall₂_cons_left_iff, eq_comm]
  · rw [parse_of_notBlank blank, or_iff_right fun both => blank both.1,
      ← readPieces_eq_ok_iff 0 (Text.byteLength (source.toList.takeWhile Text.isBlank))]
    cases readPieces 0 _ (pieces source) <;> cases program <;> simp [Except.map]

theorem blames_of_parse_error {source : String} (failed : parse source = .error error) :
    ∃ earlier piece later front behind, Blames source error earlier piece later front behind := by
  have notBlank : Text.trim source.toList ≠ [] := by
    intro blank
    rw [parse_of_blank blank] at failed
    cases failed
  rw [parse_of_notBlank notBlank] at failed
  cases read : readPieces 0 (Text.byteLength (source.toList.takeWhile Text.isBlank))
      (pieces source) with
  | ok words =>
      rw [read] at failed
      cases failed
  | error other =>
      rw [read] at failed
      cases failed
      obtain ⟨earlier, piece, later, split, give, bad, place, left, right⟩ := readPieces_error read
      obtain ⟨rest, joined⟩ := intercalate_eq earlier piece later
      obtain ⟨last, whole⟩ := Text.exists_trim source.toList
      rw [← split, pieces, List.intercalate_splitOn] at joined
      rw [joined] at whole
      refine ⟨earlier, piece, later,
        String.ofList (source.toList.takeWhile Text.isBlank ++ ahead earlier),
        String.ofList (rest ++ last), ?_, split, give, gives_none_of_readPiece bad, ?_,
        fault_of_readPiece bad, ?_, ?_, ?_, String.toList_ofList⟩
      · rw [Ne, Text.trim_eq_nil_iff] at notBlank
        simpa using notBlank
      · rw [place, Nat.zero_add]
      · rw [← String.ofList_append, ← String.ofList_append, ← String.toList_inj,
          String.toList_ofList]
        simpa only [List.append_assoc] using whole
      · rw [← Text.byteLength_eq, Text.byteLength_append, left]
      · rw [← String.ofList_append, ← Text.byteLength_eq, Text.byteLength_append,
          Text.byteLength_append, right, left]

/-- A text is read as a program just if it is blank, and then the program is empty, or if its pieces
give the words in order. The error of any other text is about the first piece that gives none. -/
theorem parsing_follows_grammar (source : String) :
    (∀ program, parse source = .ok program ↔
      ((∀ char ∈ source.toList, Text.isBlank char = true) ∧ program.words = []) ∨
        List.Forall₂ Gives (pieces source) program.words) ∧
    ∀ error, parse source = .error error →
      ∃ earlier piece later front behind, Blames source error earlier piece later front behind :=
  ⟨fun _ => parse_eq_ok_iff, fun _ failed => blames_of_parse_error failed⟩

/-- A sign apart from its digits is blamed behind blanks of several bytes. -/
theorem lone_sign_is_blamed :
    parse "\u3000+1\u2003, - 2 ,3" = .error ⟨.invalidNumber, 1, 9, 14⟩ ∧
      ∃ earlier piece later front behind,
        Blames "\u3000+1\u2003, - 2 ,3" ⟨.invalidNumber, 1, 9, 14⟩ earlier piece later front
          behind := by
  have failed : parse "\u3000+1\u2003, - 2 ,3" = .error ⟨.invalidNumber, 1, 9, 14⟩ := by
    decide +kernel
  exact ⟨failed, (parsing_follows_grammar _).2 _ failed⟩

end Program

end Intcode
