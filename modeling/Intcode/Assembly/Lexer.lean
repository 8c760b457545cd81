import Intcode.Assembly.Token
import Intcode.Text.Measure
import Intcode.Word.Decimal

namespace Intcode.Assembly

/-! # Cutting assembly text into tokens

Between tokens there may be spaces, tabs and carriage returns. Each token, and
each piece of text that is none, takes as many characters as its kind allows.
Text that is no token is an error with its place; reading goes on behind it.
-/

inductive LexFault where
  /-- A character that begins no token. -/
  | unexpectedToken
  /-- A number word that is not a decimal machine word. -/
  | invalidNumber
  /-- An `@` without a name. -/
  | emptyLabelReference
deriving DecidableEq, Repr

namespace LexFault

def message : LexFault → String
  | unexpectedToken => "unexpected token"
  | invalidNumber => "invalid number"
  | emptyLabelReference => "label reference without name"

end LexFault

/-- A fault and where its piece of text begins. Lines and columns count from
one, columns in bytes. -/
structure LexError where
  fault : LexFault
  line : Nat
  column : Nat
deriving DecidableEq, Repr

namespace LexError

def message (error : LexError) : String :=
  s!"{error.fault.message} at {error.line}:{error.column}"

end LexError

/-- May the character stand between tokens? -/
def isGap (char : Char) : Bool :=
  char = ' ' || char = '\t' || char = '\r'

/-- Can the character go on a word or a number? -/
def isWordChar (char : Char) : Bool :=
  char.isAlphanum || char = '_'

structure Lexeme where
  text : List Char
  item : Except LexFault Token

namespace Lexeme

/-- The longest run of word characters after `first`, with `first` in front. -/
def run (first : Char) (rest : List Char) : List Char :=
  first :: rest.takeWhile isWordChar

/-- A word of digits and letters is a number only as a whole. -/
def ofNumber (text : List Char) : Lexeme :=
  match Word.parse text with
  | .ok value => { text, item := .ok (.number value) }
  | .error _ => { text, item := .error .invalidNumber }

/-- The lexeme that begins with `first`, in a text that goes on with `rest`. -/
def leading (first : Char) (rest : List Char) : Lexeme :=
  if first = '\n' then { text := [first], item := .ok .newline }
  else if first = ':' then { text := [first], item := .ok .colon }
  else if first = '=' then { text := [first], item := .ok .equals }
  else if first = '#' then
    let text := first :: rest.takeWhile (· ≠ '\n')
    { text, item := .ok (.comment (String.ofList text)) }
  else if first = '@' then
    let text := run first rest
    if text.tail.isEmpty then { text, item := .error .emptyLabelReference }
    else { text, item := .ok (.labelRef (String.ofList text.tail)) }
  else if first = '-' && rest.head? = some '>' then
    { text := ['-', '>'], item := .ok .arrow }
  else if first = '-' || first.isDigit then ofNumber (run first rest)
  else if isWordChar first then
    let text := run first rest
    { text, item := .ok (.word (String.ofList text)) }
  else { text := [first], item := .error .unexpectedToken }

end Lexeme

abbrev LexItem := Except LexError Token

private theorem drop_shorter (first : Char) (rest : List Char) (count : Nat) :
    (rest.drop count).length < (first :: rest).length := by
  rw [List.length_drop, List.length_cons]
  omega

/-- Reads a text whose first character stands at the given place. -/
def lexFrom (line column : Nat) : List Char → List LexItem
  | [] => []
  | first :: rest =>
      if isGap first then lexFrom line (column + first.utf8Size) rest
      else
        let lexeme := Lexeme.leading first rest
        let remaining := rest.drop (lexeme.text.length - 1)
        match lexeme.item with
        | .error fault =>
            .error { fault, line, column } ::
              lexFrom line (column + Text.byteLength lexeme.text) remaining
        | .ok .newline => .ok .newline :: lexFrom (line + 1) 1 remaining
        | .ok token => .ok token :: lexFrom line (column + Text.byteLength lexeme.text) remaining
termination_by text => text.length
decreasing_by
  · exact Nat.lt_succ_self _
  · exact drop_shorter first rest _
  · exact drop_shorter first rest _
  · exact drop_shorter first rest _

/-- Everything that is read from a text, errors in their places. -/
def lex (source : String) : List LexItem :=
  lexFrom 1 1 source.toList

/-- The tokens of a text, or its first error. -/
def tokens (source : String) : Except LexError (List Token) :=
  (lex source).mapM id

end Intcode.Assembly
