import Intcode.Word.Decimal
import Mathlib.Data.Nat.Basic

namespace Intcode.Word

/-- At least one digit, and nothing else. -/
def AreDigits (text : List Char) : Prop :=
  text ≠ [] ∧ ∀ char ∈ text, char.isDigit = true

def magnitude (digits : List Char) : Nat :=
  Nat.ofDigitChars 10 digits 0

/-- The integer that a decimal text stands for. -/
inductive Denotes : List Char → Int → Prop
  | unsigned {digits : List Char} (are : AreDigits digits) : Denotes digits (magnitude digits)
  | positive {digits : List Char} (are : AreDigits digits) : Denotes ('+' :: digits) (magnitude digits)
  | negative {digits : List Char} (are : AreDigits digits) : Denotes ('-' :: digits) (-magnitude digits)

variable {text digits : List Char} {word : Word}

theorem le_ofDigitChars (digits : List Char) (start : Nat) :
    start ≤ Nat.ofDigitChars 10 digits start := by
  rw [Nat.ofDigitChars_eq_ofDigitChars_zero]
  have positive : 1 ≤ 10 ^ digits.length := Nat.one_le_pow _ _ (by decide)
  exact Nat.le_trans (Nat.le_mul_of_pos_left start positive) (Nat.le_add_right _ _)

theorem readMagnitude_eq_ok_iff {limit start result : Nat} {overflow : NumberError}
    (within : start ≤ limit) :
    readMagnitude limit overflow start text = .ok result ↔
      (∀ char ∈ text, char.isDigit = true) ∧ result = Nat.ofDigitChars 10 text start ∧
        result ≤ limit := by
  induction text generalizing start with
  | nil =>
      simp only [readMagnitude, Except.ok.injEq, Nat.ofDigitChars_nil]
      constructor
      · rintro rfl
        exact ⟨by simp, rfl, within⟩
      · rintro ⟨_, rfl, _⟩
        rfl
  | cons char rest ih =>
      by_cases digit : char.isDigit = true
      · have next : 10 * start + (char.toNat - '0'.toNat) = start * 10 + (char.toNat - '0'.toNat) := by
          rw [Nat.mul_comm]
        simp only [readMagnitude, digitValue?, digit, if_true, Nat.ofDigitChars_cons,
          List.forall_mem_cons, true_and, next]
        split <;> rename_i overflows
        · have larger := le_ofDigitChars rest (start * 10 + (char.toNat - '0'.toNat))
          constructor
          · intro failed
            cases failed
          · rintro ⟨_, rfl, fits⟩
            omega
        · exact ih (Nat.not_lt.mp overflows)
      · simp [readMagnitude, digitValue?, digit]

/-- Digits are read as the word they denote under a sign, if the limit is that of the words. -/
theorem readSigned_eq_ok_iff {limit : Nat} {overflow : NumberError} {sign : Int → Int}
    (fits : ∀ size : Nat,
      size ≤ limit ↔ -(smallestMagnitude : Int) ≤ sign size ∧ sign size < smallestMagnitude) :
    (do let size ← readMagnitude limit overflow 0 text; pure (size : Int)).map
        (fun size => Int64.ofInt (sign size)) = .ok word ↔
      (∀ char ∈ text, char.isDigit = true) ∧ word.toInt = sign (magnitude text) := by
  cases read : readMagnitude limit overflow 0 text with
  | error reason =>
      constructor
      · intro failed
        cases failed
      · rintro ⟨all, value⟩
        have inside : magnitude text ≤ limit := by
          rw [fits, ← value]
          exact ⟨word.le_toInt, word.toInt_lt⟩
        rw [(readMagnitude_eq_ok_iff (Nat.zero_le _)).mpr ⟨all, rfl, inside⟩] at read
        cases read
  | ok size =>
      obtain ⟨all, rfl, inside⟩ := (readMagnitude_eq_ok_iff (Nat.zero_le _)).mp read
      obtain ⟨lower, upper⟩ := (fits _).mp inside
      have back := Int64.toInt_ofInt_of_le lower upper
      constructor
      · intro same
        cases same
        exact ⟨all, back⟩
      · rintro ⟨_, value⟩
        exact congrArg Except.ok (Int64.toInt_inj.mp (back.trans value.symm))

theorem readPositive_eq_ok_iff :
    readPositive text = .ok word ↔
      (∀ char ∈ text, char.isDigit = true) ∧ word.toInt = magnitude text :=
  readSigned_eq_ok_iff fun size => by
    simp only [smallestMagnitude]
    omega

theorem readNegative_eq_ok_iff :
    readNegative text = .ok word ↔
      (∀ char ∈ text, char.isDigit = true) ∧ word.toInt = -magnitude text :=
  readSigned_eq_ok_iff fun size => by
    simp only [smallestMagnitude]
    omega

theorem not_areDigits_sign {sign : Char} (notDigit : sign.isDigit = false) :
    ¬ AreDigits (sign :: digits) := by
  intro are
  have digit := are.2 sign List.mem_cons_self
  rw [notDigit] at digit
  cases digit

theorem denotes_positive_iff {value : Int} :
    Denotes ('+' :: digits) value ↔ AreDigits digits ∧ value = magnitude digits := by
  constructor
  · intro denotes
    cases denotes with
    | unsigned are => exact absurd are (not_areDigits_sign rfl)
    | positive are => exact ⟨are, rfl⟩
  · rintro ⟨are, rfl⟩
    exact .positive are

theorem denotes_negative_iff {value : Int} :
    Denotes ('-' :: digits) value ↔ AreDigits digits ∧ value = -magnitude digits := by
  constructor
  · intro denotes
    cases denotes with
    | unsigned are => exact absurd are (not_areDigits_sign rfl)
    | negative are => exact ⟨are, rfl⟩
  · rintro ⟨are, rfl⟩
    exact .negative are

theorem denotes_unsigned_iff {value : Int} (notPositive : ∀ digits, text ≠ '+' :: digits)
    (notNegative : ∀ digits, text ≠ '-' :: digits) :
    Denotes text value ↔ AreDigits text ∧ value = magnitude text := by
  constructor
  · intro denotes
    cases denotes with
    | unsigned are => exact ⟨are, rfl⟩
    | positive => exact absurd rfl (notPositive _)
    | negative => exact absurd rfl (notNegative _)
  · rintro ⟨are, rfl⟩
    exact .unsigned are

/-- Just the numerals of words are read, each as the word that it denotes. -/
theorem parse_eq_ok_iff : parse text = .ok word ↔ Denotes text word.toInt := by
  fun_cases parse text with
  | case1 =>
      rw [denotes_unsigned_iff (by simp) (by simp)]
      simp [AreDigits]
  | case2 => simp [denotes_positive_iff, AreDigits]
  | case3 => simp [denotes_negative_iff, AreDigits]
  | case4 rest more =>
      have some : rest ≠ [] := fun none => more (by rw [none])
      rw [readPositive_eq_ok_iff, denotes_positive_iff, AreDigits, and_iff_right some]
  | case5 rest more =>
      have some : rest ≠ [] := fun none => more (by rw [none])
      rw [readNegative_eq_ok_iff, denotes_negative_iff, AreDigits, and_iff_right some]
  | case6 text some _ _ notPositive notNegative =>
      rw [readPositive_eq_ok_iff, denotes_unsigned_iff notPositive notNegative, AreDigits,
        and_iff_right some]

/-- A word is written as the integer that it is. -/
theorem render_eq : render = fun word => toString word.toInt := by
  funext word
  have sign : word < 0 ↔ word.toInt < 0 := by rw [Int64.lt_iff_toInt_lt, Int64.toInt_zero]
  rw [render, digits]
  simp only [sign]
  cases word.toInt with
  | ofNat size => rfl
  | negSucc size =>
      rw [if_pos (Int.negSucc_lt_zero size), String.ofList_cons]
      rfl

/-- A written word is a numeral of its own value. -/
theorem denotes_digits (word : Word) : Denotes word.digits word.toInt := by
  have are : AreDigits (Nat.toDigits 10 word.toInt.natAbs) :=
    ⟨Nat.toDigits_ne_nil, fun _ member => Nat.isDigit_of_mem_toDigits (by decide) (by decide) member⟩
  have size : magnitude (Nat.toDigits 10 word.toInt.natAbs) = word.toInt.natAbs :=
    Nat.ofDigitChars_toDigits (by decide) (by decide)
  unfold digits
  split <;> rename_i sign <;> rw [Int64.lt_iff_toInt_lt, Int64.toInt_zero] at sign
  · rw [denotes_negative_iff, size]
    exact ⟨are, by omega⟩
  · have denotes := Denotes.unsigned are
    rw [size] at denotes
    rwa [Int.natAbs_of_nonneg (Int.not_lt.mp sign)] at denotes

/-- A written word is read back. -/
theorem parse_digits (word : Word) : parse word.digits = .ok word :=
  parse_eq_ok_iff.mpr (denotes_digits word)

end Intcode.Word
