import Intcode.Assembly.Statement

namespace Intcode.Assembly

/-! # The grammar of a line

A line is blank, or `name:`, or `var name` with or without an initial value, or
a mnemonic followed by exactly the arguments of its opcode. Comments do not
count. A destination is written `-> name`. An initial value that is a name is
accepted and means zero.
-/

/-- Why a line is no statement. -/
inductive SyntaxFault where
  | labelSyntax
  | variableSyntax
  | invalidInstruction (name : String)
  /-- The argument with this number, from zero, does not fit its parameter. -/
  | invalidArgument (index : Nat)
  | incompleteStatement
  | trailingTokens
  | unexpectedToken
deriving DecidableEq, Repr

namespace SyntaxFault

def message : SyntaxFault → String
  | labelSyntax => "invalid label declaration"
  | variableSyntax => "invalid `var` syntax"
  | invalidInstruction name => s!"invalid instruction `{name}`"
  | invalidArgument index => s!"invalid argument #{index + 1}"
  | incompleteStatement => "incomplete statement"
  | trailingTokens => "unexpected tokens after instruction"
  | unexpectedToken => "unexpected token"

end SyntaxFault

structure SyntaxError where
  fault : SyntaxFault
  line : Nat
deriving DecidableEq, Repr

namespace SyntaxError

def message (error : SyntaxError) : String :=
  s!"{error.fault.message} at line {error.line}"

end SyntaxError

/-- Reads the arguments for parameters from number `index` on. Nothing may
follow the last one. -/
def readArguments : (index : Nat) → List ParamKind → List Token →
    Except SyntaxFault (List Argument)
  | _, [], [] => .ok []
  | _, [], _ :: _ => .error .trailingTokens
  | index, .value :: kinds, tokens =>
      match tokens with
      | .number value :: rest => (readArguments (index + 1) kinds rest).map (.number value :: ·)
      | .labelRef name :: rest => (readArguments (index + 1) kinds rest).map (.label name :: ·)
      | .word name :: rest => (readArguments (index + 1) kinds rest).map (.var name :: ·)
      | [] => .error .incompleteStatement
      | _ => .error (.invalidArgument index)
  | index, .destination :: kinds, tokens =>
      match tokens with
      | .arrow :: .word name :: rest => (readArguments (index + 1) kinds rest).map (.var name :: ·)
      | [] | [.arrow] => .error .incompleteStatement
      | _ => .error (.invalidArgument index)

/-- Reads the tokens of a line, without comments. A blank line is no statement. -/
def readLine : List Token → Except SyntaxFault (Option Item)
  | [] => .ok none
  | [.word name, .colon] => .ok (some (.label name))
  | .word _ :: .colon :: _ => .error .labelSyntax
  | .colon :: _ => .error .labelSyntax
  | .word "var" :: rest =>
      match rest with
      | [.word name] => .ok (some (.var name 0))
      | [.word name, .equals, .number initial] => .ok (some (.var name initial))
      | [.word name, .equals, .word _] => .ok (some (.var name 0))
      | _ => .error .variableSyntax
  | .word name :: rest =>
      match Opcode.ofMnemonic? name with
      | none => .error (.invalidInstruction name)
      | some opcode =>
          (readArguments 0 opcode.params rest).map fun arguments =>
            some (Item.ofArguments opcode arguments)
  | _ => .error .unexpectedToken

/-- Reads lines from number `line` on. -/
def readLines (line : Nat) : List (List Token) → Except SyntaxError (List Statement)
  | [] => .ok []
  | tokens :: rest =>
      match readLine tokens with
      | .error fault => .error { fault, line }
      | .ok none => readLines (line + 1) rest
      | .ok (some item) => (readLines (line + 1) rest).map ({ line, item } :: ·)

/-- The statements of a token list, or the error of the first line that is none. -/
def statements (tokens : List Token) : Except SyntaxError (List Statement) :=
  readLines 1 ((tokens.filter fun token => !token.isComment).splitOn .newline)

end Intcode.Assembly
