import Intcode.Text.Blank
import Mathlib.Data.List.DropRight

namespace Intcode.Text

variable {text front behind : List Char}

theorem isBlank_of_isDigit {char : Char} (digit : char.isDigit = true) : isBlank char = false := by
  have value : 48 ≤ char.toNat ∧ char.toNat ≤ 57 := by
    simpa [Char.isDigit, UInt32.le_iff_toNat_le] using digit
  simp only [isBlank, blankRanges, List.any_cons, List.any_nil, Bool.or_false, Bool.or_eq_false_iff,
    Bool.and_eq_false_iff, decide_eq_false_iff_not]
  omega

theorem dropWhile_isBlank (plain : ∀ char ∈ text, isBlank char = false) :
    text.dropWhile isBlank = text := by
  cases text with
  | nil => rfl
  | cons first rest => rw [List.dropWhile_cons_of_neg (by simp [plain first List.mem_cons_self])]

theorem trim_of_plain (plain : ∀ char ∈ text, isBlank char = false) : trim text = text := by
  have backward : ∀ char ∈ text.reverse, isBlank char = false := fun char member =>
    plain char (List.mem_reverse.mp member)
  rw [trim, trimStart, dropWhile_isBlank plain, trimEnd, dropWhile_isBlank backward,
    List.reverse_reverse]

theorem trimEnd_eq (text : List Char) : trimEnd text = text.rdropWhile isBlank := rfl

/-- A text begins with the blanks in front, and what is left of it by trimming comes next. -/
theorem exists_trim (text : List Char) :
    ∃ behind, text = text.takeWhile isBlank ++ (trim text ++ behind) := by
  obtain ⟨behind, split⟩ := List.rdropWhile_prefix isBlank (trimStart text)
  refine ⟨behind, ?_⟩
  rw [trim, trimEnd_eq, split, trimStart, List.takeWhile_append_dropWhile]

theorem trim_eq_nil_iff : trim text = [] ↔ ∀ char ∈ text, isBlank char = true := by
  rw [trim, trimEnd_eq, List.rdropWhile_eq_nil_iff, trimStart]
  constructor
  · intro rest char member
    rw [← List.takeWhile_append_dropWhile (p := isBlank) (l := text)] at member
    rcases List.mem_append.mp member with front | behind
    · exact List.mem_takeWhile_imp front
    · exact rest char behind
  · intro all char member
    exact all char (List.dropWhile_subset _ member)

theorem trim_append_front (blank : ∀ char ∈ front, isBlank char = true) :
    trim (front ++ text) = trim text := by
  rw [trim, trimStart, List.dropWhile_append_of_pos blank, trim, trimStart]

theorem trim_concat {char : Char} (blank : isBlank char = true) :
    trim (text ++ [char]) = trim text := by
  rw [trim, trimStart, List.dropWhile_append]
  split <;> rename_i left
  · rw [List.isEmpty_iff] at left
    rw [List.dropWhile_cons_of_pos blank, List.dropWhile_nil, trim, trimStart, left]
  · rw [trimEnd_eq, List.rdropWhile_concat_pos _ _ _ blank, trim, trimStart, trimEnd_eq]

theorem trim_append_behind (blank : ∀ char ∈ behind, isBlank char = true) :
    trim (text ++ behind) = trim text := by
  induction behind generalizing text with
  | nil => rw [List.append_nil]
  | cons char rest ih =>
      obtain ⟨first, others⟩ := List.forall_mem_cons.mp blank
      rw [List.append_cons, ih others, trim_concat first]

end Intcode.Text
