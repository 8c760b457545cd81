import Intcode.Console.Desk
import Intcode.Proofs.Text.Blank
import Intcode.Proofs.Word.Decimal

namespace Intcode

namespace Text

/-- The bytes of a text in UTF-8. -/
def encode (text : List Char) : List UInt8 :=
  text.flatMap String.utf8EncodeChar

variable {text line : List Char} {char : Char} {byte : UInt8}

theorem encode_eq (source : String) : source.toUTF8.data.toList = encode source.toList := by
  rw [String.toUTF8, ← String.utf8Encode_toList, List.utf8Encode, List.toList_data_toByteArray,
    encode]

theorem encode_append (front behind : List Char) :
    encode (front ++ behind) = encode front ++ encode behind :=
  List.flatMap_append

theorem encode_eq_nil_iff : encode text = [] ↔ text = [] := by
  cases text with
  | nil => exact iff_of_true rfl rfl
  | cons first rest => simp [encode, String.utf8EncodeChar_ne_nil]

/-- A byte of a character is that character or lies beyond ASCII. -/
theorem mem_utf8EncodeChar (member : byte ∈ String.utf8EncodeChar char) :
    byte.toNat = char.toNat ∨ 128 ≤ byte.toNat := by
  have value : char.val.toNat = char.toNat := rfl
  simp only [String.utf8EncodeChar, value] at member
  split at member
  · rw [List.mem_singleton.mp member, UInt8.toNat_ofNat']
    omega
  · right
    split at member
    · simp only [List.mem_cons, List.not_mem_nil, or_false] at member
      rcases member with rfl | rfl <;> rw [UInt8.toNat_ofNat'] <;> omega
    · split at member
      · simp only [List.mem_cons, List.not_mem_nil, or_false] at member
        rcases member with rfl | rfl | rfl <;> rw [UInt8.toNat_ofNat'] <;> omega
      · simp only [List.mem_cons, List.not_mem_nil, or_false] at member
        rcases member with rfl | rfl | rfl | rfl <;> rw [UInt8.toNat_ofNat'] <;> omega

/-- A byte of ASCII stands for its own character only. -/
theorem mem_of_mem_encode (member : byte ∈ encode text) (ascii : byte.toNat = char.toNat)
    (small : byte.toNat < 128) : char ∈ text := by
  obtain ⟨other, inside, part⟩ := List.mem_flatMap.mp member
  rcases mem_utf8EncodeChar part with same | large
  · rwa [Char.toNat_inj.mp (ascii.symm.trans same)]
  · omega

theorem trim_dropReturn (line : List Char) : trim (dropReturn line) = trim line := by
  rcases List.eq_nil_or_concat line with rfl | ⟨front, last, rfl⟩
  · rfl
  rw [List.concat_eq_append, dropReturn]
  split <;> rename_i ends
  · have returns : last = '\r' := by simpa using ends
    rw [List.dropLast_concat, returns, trim_concat (by decide)]
  · rfl

/-- A line gives the value whose numeral stands in it between blanks. A blank line gives none. -/
inductive LineGives : List Char → List Word → Prop
  | blank {line : List Char} (blank : ∀ char ∈ line, isBlank char = true) : LineGives line []
  | value {front numeral behind : List Char} {word : Word}
      (blankFront : ∀ char ∈ front, isBlank char = true) (denotes : Word.Denotes numeral word.toInt)
      (blankBehind : ∀ char ∈ behind, isBlank char = true) :
      LineGives (front ++ (numeral ++ behind)) [word]

/-- A text gives the values of its lines, in order. The last line has no ending, and may be
empty. -/
inductive Gives : List Char → List Word → Prop
  | last {line : List Char} {words : List Word} (whole : '\n' ∉ line)
      (gives : LineGives line words) : Gives line words
  | feed {line rest : List Char} {words more : List Word} (whole : '\n' ∉ line)
      (gives : LineGives line words) (later : Gives rest more) :
      Gives (line ++ '\n' :: rest) (words ++ more)
  | returnFeed {line rest : List Char} {words more : List Word} (whole : '\n' ∉ line)
      (gives : LineGives line words) (later : Gives rest more) :
      Gives (line ++ '\r' :: '\n' :: rest) (words ++ more)

end Text

theorem Word.isBlank_of_denotes {numeral : List Char} {value : Int}
    (denotes : Denotes numeral value) : ∀ char ∈ numeral, Text.isBlank char = false := by
  have plain {digits : List Char} (are : AreDigits digits) :
      ∀ char ∈ digits, Text.isBlank char = false :=
    fun char member => Text.isBlank_of_isDigit (are.2 char member)
  cases denotes with
  | unsigned are => exact plain are
  | positive are | negative are => exact List.forall_mem_cons.mpr ⟨by decide, plain are⟩

namespace Console.Content

open Text

variable {line rest : List Char}

theorem ofBytes_encode (line : List Char) : ofBytes (encode line) = .text (String.ofList line) := by
  have decoded : String.fromUTF8? (encode line).toByteArray = some (String.ofList line) := by
    have valid : (encode line).toByteArray.IsValidUTF8 := ByteArray.isValidUTF8_utf8Encode
    rw [String.fromUTF8?, dif_pos valid]
    exact congrArg some (String.toByteArray_inj.mp String.toByteArray_ofList.symm)
  rw [ofBytes, decoded]

theorem dropReturn_encode (line : List Char) :
    dropReturn (encode line) = encode (Text.dropReturn line) := by
  rcases List.eq_nil_or_concat line with rfl | ⟨front, last, rfl⟩
  · rfl
  rw [List.concat_eq_append]
  by_cases returns : last = '\r'
  · subst returns
    have bytes : encode (front ++ ['\r']) = encode front ++ [13] := encode_append front ['\r']
    rw [bytes, dropReturn, Text.dropReturn]
    simp
  · have kept : (encode (front ++ [last])).getLast? ≠ some 13 := by
      intro ends
      have some : encode [last] ≠ [] := mt encode_eq_nil_iff.mp (List.cons_ne_nil _ _)
      rw [encode_append, List.getLast?_append_of_ne_nil _ some] at ends
      have inside : '\r' ∈ [last] := mem_of_mem_encode (List.mem_of_getLast? ends) rfl (by decide)
      exact returns (List.mem_singleton.mp inside).symm
    rw [dropReturn, if_neg kept, Text.dropReturn, if_neg (by simpa using returns)]

/-- The byte of a line feed is a part of no other character. -/
theorem notMem_encode (whole : '\n' ∉ line) : ∀ byte ∈ encode line, (byte == 10) = false := by
  intro byte member
  rw [beq_eq_false_iff_ne]
  rintro rfl
  exact whole (mem_of_mem_encode member rfl (by decide))

theorem linesOfBytes_ended (whole : '\n' ∉ line) (rest : List Char) :
    linesOfBytes (encode (line ++ '\n' :: rest)) =
      .text (String.ofList (Text.dropReturn line)) :: linesOfBytes (encode rest) := by
  have bytes : encode (line ++ '\n' :: rest) = encode line ++ 10 :: encode rest :=
    encode_append line ('\n' :: rest)
  have pieces : (encode (line ++ '\n' :: rest)).splitOn 10 =
      encode line :: (encode rest).splitOn 10 := by
    rw [bytes, List.splitOn_eq_splitOnP, List.splitOnP_append_cons _ _ (by rfl),
      List.splitOnP_eq_singleton (notMem_encode whole)]
    rfl
  rw [linesOfBytes, pieces, ofPieces, dropReturn_encode, ofBytes_encode, linesOfBytes]
  exact List.splitOnP_ne_nil _ _

theorem linesOfBytes_unended (whole : '\n' ∉ line) :
    linesOfBytes (encode line) = if line.isEmpty then [] else [.text (String.ofList line)] := by
  have pieces : (encode line).splitOn 10 = [encode line] := by
    rw [List.splitOn_eq_splitOnP, List.splitOnP_eq_singleton (notMem_encode whole)]
  rw [linesOfBytes, pieces, ofPieces, ofBytes_encode]
  simp only [List.isEmpty_iff, encode_eq_nil_iff]

/-- Lines that hold these values, one a line, and blank lines between them. -/
inductive Supply : List Content → List Word → Prop
  | nil : Supply [] []
  | blank {line : String} {rest : List Content} {words : List Word}
      (blank : trim line.toList = []) (later : Supply rest words) : Supply (.text line :: rest) words
  | value {line : String} {rest : List Content} {word : Word} {words : List Word}
      (parsed : Word.parse (trim line.toList) = .ok word) (later : Supply rest words) :
      Supply (.text line :: rest) (word :: words)

/-- The next value on lines of input: that of the next line that is not blank, if it holds one. -/
def nextValue : List Content → Option Word × List Content
  | [] => (none, [])
  | undecodable :: rest => (none, rest)
  | text line :: rest =>
      let numeral := Text.trim line.toList
      if numeral.isEmpty then nextValue rest
      else ((Word.parse numeral).toOption, rest)

theorem nextValue_length_le (lines : List Content) :
    (nextValue lines).2.length ≤ lines.length := by
  fun_induction nextValue lines with
  | case1 => exact Nat.le_refl _
  | case2 | case4 => exact Nat.le_succ _
  | case3 line rest numeral blank ih => exact Nat.le_succ_of_le ih

variable {text : List Char} {lines : List Content} {words more : List Word}

theorem Supply.nextValue (supply : Supply lines words) :
    (nextValue lines).1 = words.head? ∧ Supply (nextValue lines).2 words.tail := by
  induction supply with
  | nil => exact ⟨rfl, .nil⟩
  | blank blank later ih =>
      simp only [Content.nextValue, blank, List.isEmpty_nil, if_true]
      exact ih
  | @value line rest word words parsed later =>
      have some : (Text.trim line.toList).isEmpty = false := by
        rw [Bool.eq_false_iff, Ne, List.isEmpty_iff]
        intro none
        rw [none] at parsed
        cases parsed
      simp only [Content.nextValue, some, Bool.false_eq_true, if_false, parsed]
      exact ⟨rfl, later⟩

theorem Supply.of_line (gives : LineGives text words) (same : trim line = trim text)
    (later : Supply lines more) : Supply (.text (String.ofList line) :: lines) (words ++ more) := by
  cases gives with
  | blank blank =>
      refine .blank ?_ later
      rw [String.toList_ofList, same, trim_eq_nil_iff.mpr blank]
  | @value front numeral behind word blankFront denotes blankBehind =>
      refine .value ?_ later
      have trimmed : trim (front ++ (numeral ++ behind)) = numeral := by
        rw [trim_append_front blankFront, trim_append_behind blankBehind,
          trim_of_plain (Word.isBlank_of_denotes denotes)]
      rw [String.toList_ofList, same, trimmed, Word.parse_eq_ok_iff]
      exact denotes

theorem supply_of_gives (gives : Text.Gives text words) :
    Supply (linesOfBytes (encode text)) words := by
  induction gives with
  | @last line words whole given =>
      rw [linesOfBytes_unended whole]
      split <;> rename_i empty
      · cases given with
        | blank => exact .nil
        | value _ denotes _ =>
            simp only [List.isEmpty_iff, List.append_eq_nil_iff] at empty
            obtain ⟨-, rfl, -⟩ := empty
            cases Word.parse_eq_ok_iff.mpr denotes
      · have supplied := Supply.of_line given rfl .nil
        rwa [List.append_nil] at supplied
  | @feed line rest words more whole given later ih =>
      rw [linesOfBytes_ended whole]
      exact .of_line given (trim_dropReturn line) ih
  | @returnFeed line rest words more whole given later ih =>
      have whole : '\n' ∉ line ++ ['\r'] := by simpa using whole
      have dropped : Text.dropReturn (line ++ ['\r']) = line := by simp [Text.dropReturn]
      rw [List.append_cons, linesOfBytes_ended whole, dropped]
      exact .of_line given rfl ih

end Console.Content

end Intcode
