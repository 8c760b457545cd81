namespace Intcode.Console

inductive FileError where
  | notFound
  | notDirectory
  | isDirectory
  | nameTooLong
  | notUtf8
  | other (reason : String)
deriving DecidableEq, Repr

namespace FileError

def message : FileError → String
  | notFound => "No such file or directory (os error 2)"
  | notDirectory => "Not a directory (os error 20)"
  | isDirectory => "Is a directory (os error 21)"
  | nameTooLong => "File name too long (os error 36)"
  | notUtf8 => "stream did not contain valid UTF-8"
  | other reason => reason

end FileError

structure Host (m : Type → Type) where
  readFile : (path : String) → m (Except FileError String)
  writeFile : (path text : String) → m (Except FileError Unit)
  /-- The next line of standard input, without its ending. -/
  readLine : m (Option (Except FileError String))
  print : String → m Unit
  /-- Prints a line on standard error. -/
  complain : String → m Unit
  log : String → m Unit

end Intcode.Console
