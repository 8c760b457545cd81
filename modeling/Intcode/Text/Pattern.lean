import Intcode.Text.Alphanumeric
import Intcode.Text.Pattern.CharacterClass

namespace Intcode.Text

/-! # Patterns

A pattern describes texts: characters stand for themselves, classes and `.` for
one of several, `|` separates alternatives, parentheses group, and `*`, `+` and
`?` repeat what is in front of them. Here it is only decided if a text is a
pattern, one that is not nested too deep. Counted repetitions in braces are not
among them.
-/

namespace Pattern

/-- A group that is not closed yet. -/
structure OpenGroup where
  flags : Flags := {}
  /-- The alternatives that are complete. -/
  alternatives : Row := {}
  parts : Row := {}
deriving DecidableEq, Repr

/-- What of a pattern matters for what may follow. -/
structure State where
  /-- The innermost group, or the pattern itself. -/
  current : OpenGroup := {}
  /-- The groups around it, the innermost of them first, and the pattern last. -/
  around : List OpenGroup := []
  names : List (List Char) := []
  /-- The depth of what is in front, if it can be repeated. -/
  repeatable? : Option Nat := none
deriving DecidableEq, Repr

namespace OpenGroup

/-- The depth of what is in the group. -/
def depth (group : OpenGroup) : Nat :=
  (group.alternatives.push group.parts.depth).depth

def alternate (group : OpenGroup) : OpenGroup :=
  { group with alternatives := group.alternatives.push group.parts.depth, parts := {} }

def add (group : OpenGroup) (depth : Nat) : OpenGroup :=
  { group with parts := group.parts.push depth }

end OpenGroup

namespace Flags

/-- Sets the flags that stand in front of `-` and clears those behind it. -/
def change (flags : Flags) (letters : List Char) : Flags :=
  let raised := letters.takeWhile (· ≠ '-')
  let cleared := letters.dropWhile (· ≠ '-')
  let next (before : Bool) (letter : Char) : Bool :=
    (before || raised.contains letter) && !cleared.contains letter
  { ignoreCase := next flags.ignoreCase 'i'
    unicode := next flags.unicode 'u'
    verbose := next flags.verbose 'x' }

end Flags

/-- Are these letters of flags? Each stands at most once, and one stands behind
a dash. -/
def areFlags (letters : List Char) : Bool :=
  letters.all ("imsUuRx-".toList.contains ·) && decide letters.Nodup &&
    letters.getLast? ≠ some '-'

def isGroupName : List Char → Bool
  | [] => false
  | first :: rest =>
      (first = '_' || isAlphabetic first) &&
        rest.all fun char => "_.[]".toList.contains char || isAlphanumeric char

namespace State

def flags (state : State) : Flags :=
  state.current.flags

/-- Goes on behind a part of some depth that can be repeated. -/
def behind (state : State) (depth : Nat) : State :=
  { state with current := state.current.add depth, repeatable? := some depth }

/-- Repeats what is in front. -/
def repeat? (state : State) : Option State :=
  state.repeatable?.map fun depth =>
    { state with
      current := { state.current with parts := state.current.parts.deepen (depth + 1) }
      repeatable? := some (depth + 1) }

def alternate (state : State) : State :=
  { state with current := state.current.alternate, repeatable? := none }

def enter (state : State) (flags : Flags) : State :=
  { state with
    current := { flags }
    around := state.current :: state.around
    repeatable? := none }

/-- Leaves a group, with the flags from around it. -/
def leave? (state : State) : Option State :=
  match state.around with
  | [] => none
  | outer :: around =>
      some ({ state with current := outer, around }.behind (state.current.depth + 1))

/-- Reads a group's name and goes into the group. -/
def enterNamed? (state : State) (text : List Char) : Option (State × List Char) :=
  let name := text.takeWhile (· ≠ '>')
  match text.dropWhile (· ≠ '>') with
  | [] => none
  | _ :: rest =>
      if isGroupName name && !state.names.contains name then
        some ({ state with names := name :: state.names }.enter state.flags, rest)
      else none

/-- Sets the flags for the rest of a group. That is a part that cannot be repeated. -/
def setFlags (state : State) (flags : Flags) : State :=
  { state with current := { state.current.add 0 with flags }, repeatable? := none }

/-- Reads flags, for a group that begins there or for the rest of the one they
stand in. -/
def changeFlags? (state : State) (text : List Char) : Option (State × List Char) :=
  let letters := text.takeWhile fun char => char ≠ ':' && char ≠ ')'
  let flags := state.flags.change letters
  if !areFlags letters then none
  else
    match text.dropWhile fun char => char ≠ ':' && char ≠ ')' with
    | ':' :: rest => some (state.enter flags, rest)
    | ')' :: rest => if letters.isEmpty then none else some (state.setFlags flags, rest)
    | _ => none

/-- Reads how a group begins, behind its parenthesis. -/
def openGroup? (state : State) : List Char → Option (State × List Char)
  | '?' :: 'P' :: '<' :: rest => state.enterNamed? rest
  | '?' :: '<' :: rest => state.enterNamed? rest
  | '?' :: rest => state.changeFlags? rest
  | text => some (state.enter state.flags, text)

/-- Reads what a pattern goes on with: its next character and what belongs to it. -/
def advance? (state : State) (char : Char) (rest : List Char) : Option (State × List Char) :=
  match char with
  | '(' => state.openGroup? (state.flags.skip rest)
  | ')' => state.leave?.map fun state => (state, rest)
  | '|' => some (state.alternate, rest)
  | '*' | '+' | '?' =>
      state.repeat?.map fun state => (state, if rest.head? = some '?' then rest.tail else rest)
  | '{' => none
  | '^' | '$' => some (state.behind 0, rest)
  | '.' => if state.flags.unicode then some (state.behind 0, rest) else none
  | '[' => do
      let (first, rest) ← openClass? state.flags rest
      let (depth, rest) ← readClass? state.flags (rest.length + 1) [] first rest
      pure (state.behind depth, rest)
  | '\\' => do
      match ← readEscape? state.flags rest with
      | (.character _, rest) =>
          if state.flags.allowCharacters then some (state.behind 0, rest) else none
      | (_, rest) => some (state.behind 0, rest)
  | _ => if state.flags.allowCharacters then some (state.behind 0, rest) else none

/-- Can a pattern end here? All groups are closed, and it is not nested too deep. -/
def isComplete (state : State) : Bool :=
  state.around.isEmpty && state.current.depth ≤ nestingLimit

def accepts (state : State) : (fuel : Nat) → List Char → Bool
  | 0, _ => false
  | fuel + 1, text =>
      match state.flags.skip text with
      | [] => state.isComplete
      | char :: rest =>
          match state.advance? char rest with
          | some (state, rest) => accepts state fuel rest
          | none => false

end State

end Pattern

/-- Is this text a pattern? Each of its parts has a character, which bounds the
number of parts. -/
def isPattern (text : List Char) : Bool :=
  ({} : Pattern.State).accepts (text.length + 1) text

end Intcode.Text
