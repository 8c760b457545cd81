import Intcode.Assembly.Code
import Intcode.Assembly.Grammar
import Intcode.Assembly.Lexer
import Intcode.Event

namespace Intcode

inductive AssemblyError where
  | lexical (error : Assembly.LexError)
  | grammar (error : Assembly.SyntaxError)
  | code (error : Assembly.CodeError)
deriving DecidableEq, Repr

namespace AssemblyError

def line : AssemblyError → Nat
  | lexical error => error.line
  | grammar error => error.line
  | code error => error.line

def message : AssemblyError → String
  | lexical error => error.message
  | grammar error => error.message
  | code error => error.message

end AssemblyError

namespace Assembly

/-- An assembled text: what it says, where everything stands, and its program. -/
structure Listing where
  statements : List Statement
  symbols : Symbols
  program : Program

def read (source : String) : Except AssemblyError (List Statement) := do
  let tokens ← (tokens source).mapError .lexical
  (statements tokens).mapError .grammar

namespace Listing

def ofSource (source : String) : Except AssemblyError Listing := do
  let statements ← read source
  let symbols ← (({} : Symbols).populate statements).mapError .code
  let words ← (symbols.generate statements).mapError .code
  pure { statements, symbols, program := ⟨words⟩ }

/-- What there is to tell about an assembled text. -/
def event (listing : Listing) : Event :=
  .assembled listing.statements.length listing.symbols.labels.size
    listing.symbols.vars.size listing.program.size

end Listing

end Assembly

def assemble (source : String) : Except AssemblyError Program :=
  (Assembly.Listing.ofSource source).map Assembly.Listing.program

end Intcode
