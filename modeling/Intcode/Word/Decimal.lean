import Intcode.Word

namespace Intcode

/-! # Decimal text of words

A word is written as its shortest decimal form, with `-` in front of a negative
one. It is read from an optional single sign and at least one ASCII digit;
leading zeros are allowed, the value has to fit a word. Reading goes from left
to right and stops at the first character that is wrong, so a text that is both
too long and malformed fails for whichever shows first.
-/

inductive NumberError where
  | empty
  | invalidDigit
  | tooLarge
  | tooSmall
deriving DecidableEq, Repr

namespace NumberError

def message : NumberError → String
  | empty => "cannot parse integer from empty string"
  | invalidDigit => "invalid digit found in string"
  | tooLarge => "number too large to fit in target type"
  | tooSmall => "number too small to fit in target type"

end NumberError

namespace Word

/-- The decimal characters of a word. -/
def digits (word : Word) : List Char :=
  if word < 0 then '-' :: Nat.toDigits 10 word.toInt.natAbs
  else Nat.toDigits 10 word.toInt.natAbs

def render (word : Word) : String :=
  String.ofList word.digits

def digitValue? (char : Char) : Option Nat :=
  if char.isDigit then some (char.toNat - '0'.toNat) else none

/-- Reads digits onto the magnitude already read. The magnitude may not exceed
`limit`, else the answer is `overflow`. -/
def readMagnitude (limit : Nat) (overflow : NumberError) : Nat → List Char → Except NumberError Nat
  | magnitude, [] => .ok magnitude
  | magnitude, char :: rest =>
      match digitValue? char with
      | none => .error .invalidDigit
      | some digit =>
          let next := magnitude * 10 + digit
          if limit < next then .error overflow
          else readMagnitude limit overflow next rest

/-- The magnitude of the smallest word. That of the largest is one less. -/
def smallestMagnitude : Nat := 9223372036854775808

def readPositive (text : List Char) : Except NumberError Word :=
  (readMagnitude (smallestMagnitude - 1) .tooLarge 0 text).map fun magnitude => Int64.ofInt magnitude

/-- Reads the digits behind a minus sign. -/
def readNegative (text : List Char) : Except NumberError Word :=
  (readMagnitude smallestMagnitude .tooSmall 0 text).map fun magnitude => Int64.ofInt (-(magnitude : Int))

/-- Reads a word from its whole decimal text. A sign that stands alone is an
invalid digit. -/
def parse : List Char → Except NumberError Word
  | [] => .error .empty
  | ['+'] => .error .invalidDigit
  | ['-'] => .error .invalidDigit
  | '+' :: rest => readPositive rest
  | '-' :: rest => readNegative rest
  | text => readPositive text

end Word

end Intcode
