import Intcode.Program
import Intcode.Word.Decimal
import Intcode.Text.Blank
import Intcode.Text.Measure

namespace Intcode

/-! # Program text

A program is written as its words with commas between them. When it is read, the
text and every piece between two commas may have blanks around it, and a text of
blanks alone is the empty program. The first piece that is not a number is
reported with its place in the whole text, blanks in front included.
-/

/-- What is wrong with a piece between commas. -/
inductive PieceFault where
  | emptyToken
  | invalidNumber
deriving DecidableEq, Repr

namespace PieceFault

def message : PieceFault → String
  | emptyToken => "empty token"
  | invalidNumber => "invalid number"

end PieceFault

/-- The first bad piece: its number, and the bytes `start` to `stop` that it takes. -/
structure PieceError where
  fault : PieceFault
  index : Nat
  start : Nat
  stop : Nat
deriving DecidableEq, Repr

namespace PieceError

def message (error : PieceError) : String :=
  error.fault.message ++ " at token #" ++ toString error.index ++
    " (" ++ toString error.start ++ ".." ++ toString error.stop ++ ")"

end PieceError

namespace Program

/-- Reads one piece, which may have blanks around its number. -/
def readPiece (piece : List Char) : Except PieceFault Word :=
  let value := Text.trim piece
  if value.isEmpty then .error .emptyToken
  else
    match Word.parse value with
    | .ok word => .ok word
    | .error _ => .error .invalidNumber

/-- Reads the pieces from number `index` on, the first of which begins at byte `start`. -/
def readPieces (index start : Nat) : List (List Char) → Except PieceError (List Word)
  | [] => .ok []
  | piece :: rest =>
      let stop := start + Text.byteLength piece
      match readPiece piece with
      | .error fault => .error { fault, index, start, stop }
      | .ok word => (readPieces (index + 1) (stop + 1) rest).map (word :: ·)

def parse (source : String) : Except PieceError Program :=
  let text := source.toList
  let trimmed := Text.trim text
  if trimmed.isEmpty then .ok ⟨[]⟩
  else
    let lead := Text.byteLength text - Text.byteLength (Text.trimStart text)
    (readPieces 0 lead (trimmed.splitOn ',')).map Program.mk

def render (program : Program) : String :=
  String.intercalate "," (program.words.map Word.render)

end Program

end Intcode
