namespace Intcode.Text

/-! # Lines

A line ends at a line feed, and one carriage return right before that line feed
belongs to the ending. Text after the last line feed is a line only if there is
any, and it keeps a carriage return it ends with.
-/

/-- A line without the carriage return of its ending. -/
def dropReturn (line : List Char) : List Char :=
  if line.getLast? = some '\r' then line.dropLast else line

/-- Splits the pieces between line feeds into ended lines and the last, unended one. -/
def ofPieces : List (List Char) → List (List Char)
  | [] => []
  | [last] => if last.isEmpty then [] else [last]
  | line :: rest => dropReturn line :: ofPieces rest

/-- The lines of a text, without their endings. -/
def lines (text : List Char) : List (List Char) :=
  ofPieces (text.splitOn '\n')

end Intcode.Text
