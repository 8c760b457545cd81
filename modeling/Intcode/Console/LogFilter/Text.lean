import Intcode.Console.LogFilter
import Intcode.Text.Measure
import Intcode.Text.Pattern

namespace Intcode.Console

/-! # The text of log filters

A filter is written as directives with commas between them:

    area[span{field=value}]=level

Any part can be left out, and a level can stand alone. A directive that is
limited to spans, by their name or by the value of a field, is read and then
dropped, because there are no spans.

The parts of a directive are found in its text without the blanks around it, but
counted from there they are cut out of the text with the blanks.
-/

/-- Reads a level: a name in any case, or a number from 0 for nothing to 5 for
everything. -/
def readThreshold? (text : List Char) : Option Threshold :=
  match String.ofList (text.map Char.toLower) with
  | "off" => some none
  | "error" => some (some .error)
  | "warn" => some (some .warn)
  | "info" => some (some .info)
  | "debug" => some (some .debug)
  | "trace" => some (some .trace)
  | _ =>
      let digits := if text.head? = some '+' then text.tail else text
      if digits.isEmpty then none
      else
        match Word.readMagnitude 5 .tooLarge 0 digits with
        | .ok magnitude =>
            [none, some .error, some .warn, some .info, some .debug, some .trace][magnitude]?
        | .error _ => none

def dropSign (text : List Char) : List Char :=
  if text.head? = some '+' || text.head? = some '-' then text.tail else text

/-- Is this nothing, or `e` and a power of ten? -/
def isScale (text : List Char) : Bool :=
  let power := dropSign text.tail
  text.isEmpty ||
    ((text.head? = some 'e' || text.head? = some 'E') && !power.isEmpty && power.all Char.isDigit)

/-- Are these the digits of a number, with a point among them or not, and a power
of ten? -/
def isDecimal (text : List Char) : Bool :=
  let whole := text.takeWhile Char.isDigit
  let text := text.dropWhile Char.isDigit
  let hasPoint := text.head? = some '.'
  let fraction := if hasPoint then text.tail.takeWhile Char.isDigit else []
  let scale := if hasPoint then text.tail.dropWhile Char.isDigit else text
  (!whole.isEmpty || !fraction.isEmpty) && isScale scale

/-- Is this a number? Infinity and what is no number have names. -/
def isNumber (text : List Char) : Bool :=
  let text := dropSign text
  isDecimal text || ["inf", "infinity", "nan"].contains (String.ofList (text.map Char.toLower))

/-- A field of a directive as it is written: its name, and whether there is a
value to compare with. -/
structure FieldText where
  name : String
  hasValue : Bool
deriving DecidableEq, Repr

namespace FieldText

/-- Reads a field. Its value is a number or a pattern. A second `=` ends it. -/
def read? (text : List Char) : Option FieldText :=
  let name := String.ofList (text.takeWhile (· ≠ '='))
  let value? := (text.dropWhile (· ≠ '=')).tail?.map fun value => value.takeWhile (· ≠ '=')
  if text.isEmpty then none
  else if value?.all fun value => isNumber value || Text.isPattern value then
    some { name, hasValue := value?.isSome }
  else none

end FieldText

/-- A directive's text, of which the blanks at both ends do not take part. -/
structure DirectiveText where
  text : List Char
deriving DecidableEq, Repr

namespace DirectiveText

/-- The part between two positions, as the text with its blanks has it. -/
def cut (piece : DirectiveText) (start stop : Nat) : List Char :=
  Text.slice start stop piece.text

/-- The part behind a position, as the text with its blanks has it. -/
def cutFrom (piece : DirectiveText) (start : Nat) : List Char :=
  Text.dropBytes start piece.text

/-- Reads the level from a position on. Without one everything is shown. -/
def readLevel? (piece : DirectiveText) (start : Nat) : Option Threshold :=
  let text := piece.cutFrom start
  if text.isEmpty then some (some .trace) else readThreshold? text

/-- Reads what may follow a bracket: `=` and a level. It begins at a position. -/
def readEnding? (piece : DirectiveText) (start : Nat) (rest : List Char) : Option Threshold :=
  if rest.isEmpty then some (some .trace)
  else if rest.head? = some '=' then piece.readLevel? (start + 1)
  else none

/-- Reads what a directive is limited to, from behind its `[`, which is at a
position. -/
def readScope? (piece : DirectiveText) (area : Option String) (start : Nat) (rest : List Char) :
    Option (List Directive) :=
  let span := rest.takeWhile fun char => char ≠ ']' && char ≠ '\x7b'
  let nameStop := start + Text.byteLength span
  match rest.dropWhile fun char => char ≠ ']' && char ≠ '\x7b' with
  | [] => none
  | ']' :: rest => (piece.readEnding? (nameStop + 1) rest).map fun _ => []
  | _ :: rest => do
      let field := rest.takeWhile (· ≠ '\x7d')
      let fieldStop := nameStop + 1 + Text.byteLength field
      let behind := (rest.dropWhile (· ≠ '\x7d')).tail
      let field ← FieldText.read? (piece.cut (nameStop + 1) fieldStop)
      if behind.head? ≠ some ']' then none
      else
        let threshold ← piece.readEnding? (fieldStop + 2) behind.tail
        if span.isEmpty && !field.hasValue then
          pure [{ area, field := some field.name, threshold }]
        else pure []

/-- Reads a directive that begins with a level or an area. Without a level
everything is shown. -/
def readArea? (piece : DirectiveText) (text : List Char) : Option (List Directive) :=
  let name := text.takeWhile fun char => char ≠ '=' && char ≠ '['
  let stop := Text.byteLength name
  let area := some (String.ofList (piece.cut 0 stop))
  match text.dropWhile fun char => char ≠ '=' && char ≠ '[' with
  | [] =>
      match readThreshold? piece.text with
      | some threshold => some [{ threshold }]
      | none => some [{ area := some (String.ofList piece.text), threshold := some .trace }]
  | '=' :: _ => (piece.readLevel? (stop + 1)).map fun threshold => [{ area, threshold }]
  | _ :: rest => piece.readScope? area (stop + 1) rest

def read? (piece : DirectiveText) : Option (List Directive) :=
  match Text.trim piece.text with
  | [] => none
  | '[' :: rest => piece.readScope? none 1 rest
  | first :: rest =>
      if Text.isAlphanumeric first || first = '-' || first = ':' || first = '_' then
        piece.readArea? (first :: rest)
      else none

end DirectiveText

namespace LogFilter

/-- Reads directives with commas between them. Without any, errors are shown. -/
def read? (text : String) : Option LogFilter :=
  match (text.toList.splitOn ',').filter (fun piece => !piece.isEmpty) with
  | [] => some (ofLevel .error)
  | pieces => (pieces.mapM fun piece => DirectiveText.read? ⟨piece⟩).map fun directives =>
      { directives := directives.flatten }

/-- The filter for a text from the environment, if there is one that can be
read, and else for a verbosity. -/
def choose (text? : Option String) (verbosity : Nat) : LogFilter :=
  (text?.bind read?).getD (ofVerbosity verbosity)

end LogFilter

end Intcode.Console
