import Intcode.Word

namespace Intcode.Assembly

inductive Token where
  /-- From `#` to the end of the line, the `#` included. -/
  | comment (text : String)
  | newline
  /-- A mnemonic, a name or `var`. -/
  | word (name : String)
  /-- The name behind an `@`. -/
  | labelRef (name : String)
  | number (value : Word)
  | arrow
  | colon
  | equals
deriving DecidableEq, Repr, Inhabited

namespace Token

def isComment : Token → Bool
  | comment _ => true
  | _ => false

end Token

end Intcode.Assembly
