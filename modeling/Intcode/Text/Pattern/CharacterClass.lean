import Intcode.Text.Pattern.Escape
import Intcode.Text.Pattern.Nesting

namespace Intcode.Text.Pattern

def classNames : List String :=
  ["alnum", "alpha", "ascii", "blank", "cntrl", "digit", "graph", "lower", "print", "punct",
   "space", "upper", "word", "xdigit"]

/-- Reads a class with a name, behind its `[`, and says if it is a complement. -/
def readNamed? : List Char → Option (Bool × List Char)
  | ':' :: text =>
      let negated := text.head? = some '^'
      let text := if negated then text.tail else text
      let name := String.ofList (text.takeWhile (· ≠ ':'))
      match text.dropWhile (· ≠ ':') with
      | ':' :: ']' :: rest => if classNames.contains name then some (negated, rest) else none
      | _ => none
  | _ => none

/-- What has been read of a class that is not closed yet. -/
structure OpenClass where
  /-- The depth of what is in front of the last operation. -/
  left? : Option Nat := none
  /-- The entries behind it. -/
  entries : Row := {}
  /-- Are there only dashes so far? -/
  beginning : Bool := true
deriving DecidableEq, Repr

namespace OpenClass

/-- Takes an entry of some depth. -/
def add (current : OpenClass) (depth : Nat) : OpenClass :=
  { current with entries := current.entries.push depth, beginning := false }

/-- Takes a dash that stands for itself at the beginning. -/
def addDash (current : OpenClass) : OpenClass :=
  { current with entries := current.entries.push 0 }

/-- The depth of what is in the class. Operations are taken from left to right. -/
def depth (current : OpenClass) : Nat :=
  current.left?.elim current.entries.depth fun left => max left current.entries.depth + 1

def operate (current : OpenClass) : OpenClass :=
  { left? := some current.depth, beginning := false }

end OpenClass

/-- Reads what a class begins with, behind its `[`: the mark of a complement, and
a bracket that is a character. -/
def openClass? (flags : Flags) (text : List Char) : Option (OpenClass × List Char) :=
  let text := flags.skip text
  let negated := text.head? = some '^'
  let text := if negated then flags.skip text.tail else text
  if negated && !flags.unicode then none
  else if text.head? ≠ some ']' then some ({}, text)
  else if flags.allowCharacters then some (({} : OpenClass).add 0, text.tail)
  else none

/-- Reads a character or an escape, whatever character it begins with. -/
def readAtom? (flags : Flags) : List Char → Option (Atom × List Char)
  | [] => none
  | '\\' :: rest => readEscape? flags rest
  | char :: rest => some (.character char, rest)

/-- Reads an entry of a class: a character, a set or a range. -/
def readEntry? (flags : Flags) (text : List Char) : Option (List Char) := do
  let (first, text) ← readAtom? flags text
  let text := flags.skip text
  let isRange := text.head? = some '-' && flags.peek? text.tail ≠ some ']' &&
    flags.peek? text.tail ≠ some '-'
  match first with
  | .character first =>
      if !flags.allowInClass first then none
      else if isRange then
        match ← readAtom? flags (flags.skip text.tail) with
        | (.character last, rest) =>
            if first ≤ last && flags.allowInClass last then some rest else none
        | _ => none
      else some text
  | .set => if isRange then none else some text
  | .boundary => none

/-- Reads the rest of a class and says how deep the class is. It lies in other
classes, the innermost of them first. -/
def readClass? (flags : Flags) : (fuel : Nat) → (around : List OpenClass) →
    (current : OpenClass) → List Char → Option (Nat × List Char)
  | 0, _, _, _ => none
  | fuel + 1, around, current, text =>
      match flags.skip text with
      | [] => none
      | '[' :: rest =>
          match readNamed? rest with
          | some (negated, rest) =>
              if flags.allowCharacters && !(negated && !flags.unicode) then
                readClass? flags fuel around (current.add 0) rest
              else none
          | none => do
              let (inner, rest) ← openClass? flags rest
              readClass? flags fuel (current :: around) inner rest
      | ']' :: rest =>
          let depth := current.depth + 1
          match around with
          | [] => some (depth, rest)
          | outer :: around => readClass? flags fuel around (outer.add depth) rest
      | '-' :: rest =>
          if current.beginning then
            if flags.allowCharacters then readClass? flags fuel around current.addDash rest
            else none
          else if rest.head? = some '-' then
            readClass? flags fuel around current.operate rest.tail
          else do
            readClass? flags fuel around (current.add 0) (← readEntry? flags ('-' :: rest))
      | char :: rest =>
          if (char = '&' || char = '~') && rest.head? = some char then
            readClass? flags fuel around current.operate rest.tail
          else do
            readClass? flags fuel around (current.add 0) (← readEntry? flags (char :: rest))

end Intcode.Text.Pattern
