import Intcode.Text.Blank

namespace Intcode.Text.Pattern

/-! # Single characters of patterns

How a pattern is read depends on flags, which it can change on its way. Without
the Unicode mode a pattern is about bytes: what would match a byte outside ASCII
is wrong. With it whatever needs a table of characters is wrong: words, digits
and blanks, as classes or at boundaries, and the cases of letters.
-/

structure Flags where
  ignoreCase : Bool := false
  unicode : Bool := true
  /-- Are blanks and comments skipped? -/
  verbose : Bool := false
deriving DecidableEq, Repr

/-- What a part of a pattern stands for, as far as it matters where it stands. -/
inductive Atom where
  | character (char : Char)
  /-- One of several characters. -/
  | set
  /-- A place between characters. -/
  | boundary
deriving DecidableEq, Repr

namespace Flags

def allowCharacters (flags : Flags) : Bool :=
  !(flags.ignoreCase && flags.unicode)

def allowInClass (flags : Flags) (char : Char) : Bool :=
  flags.allowCharacters && (flags.unicode || char.toNat ≤ 0x7F)

/-- Skips blanks and comments, which reach from `#` to the end of the line. -/
def skipBlanks (inComment : Bool) : List Char → List Char
  | [] => []
  | char :: rest =>
      if inComment then skipBlanks (char ≠ '\n') rest
      else if isBlank char then skipBlanks false rest
      else if char = '#' then skipBlanks true rest
      else char :: rest

def skip (flags : Flags) (text : List Char) : List Char :=
  if flags.verbose then skipBlanks false text else text

/-- The character to come. Of a comment its first character counts. -/
def peek? (flags : Flags) (text : List Char) : Option Char :=
  if flags.verbose then
    let text := text.dropWhile isBlank
    if text.head? = some '#' then (text.tail.dropWhile isBlank).head? else text.head?
  else text.head?

end Flags

def hexDigit? (char : Char) : Option Nat :=
  if char.isDigit then some (char.toNat - '0'.toNat)
  else if 'a' ≤ char && char ≤ 'f' then some (char.toNat - 'a'.toNat + 10)
  else if 'A' ≤ char && char ≤ 'F' then some (char.toNat - 'A'.toNat + 10)
  else none

/-- Reads a number of hexadecimal digits onto the value already read. -/
def readHex? (flags : Flags) : (count : Nat) → (value : Nat) → List Char →
    Option (Nat × List Char)
  | 0, value, text => some (value, text)
  | count + 1, value, text =>
      match flags.skip text with
      | [] => none
      | char :: rest => do readHex? flags count (value * 16 + (← hexDigit? char)) rest

/-- Reads the code point of a character, written in a number of digits. -/
def readCode? (flags : Flags) (count : Nat) (text : List Char) : Option (Char × List Char) := do
  let (code, rest) ← readHex? flags count 0 text
  if code.isValidChar then some (Char.ofNat code, rest) else none

def readEscape? (flags : Flags) : List Char → Option (Atom × List Char)
  | [] => none
  | 'x' :: rest => do
      let (char, rest) ← readCode? flags 2 rest
      if flags.unicode || char.toNat ≤ 0x7F then some (.character char, rest) else none
  | 'u' :: rest => (readCode? flags 4 rest).map fun (char, rest) => (.character char, rest)
  | 'U' :: rest => (readCode? flags 8 rest).map fun (char, rest) => (.character char, rest)
  | 'a' :: rest => some (.character '\x07', rest)
  | 'f' :: rest => some (.character '\x0C', rest)
  | 't' :: rest => some (.character '\t', rest)
  | 'n' :: rest => some (.character '\n', rest)
  | 'r' :: rest => some (.character '\r', rest)
  | 'v' :: rest => some (.character '\x0B', rest)
  | 'A' :: rest | 'z' :: rest => some (.boundary, rest)
  | 'b' :: rest | 'B' :: rest | '<' :: rest | '>' :: rest =>
      if flags.unicode then none else some (.boundary, rest)
  | 'd' :: rest | 's' :: rest | 'w' :: rest =>
      if flags.unicode then none else some (.set, rest)
  | char :: rest =>
      if char.toNat ≤ 0x7F && !char.isAlphanum then some (.character char, rest) else none

end Intcode.Text.Pattern
