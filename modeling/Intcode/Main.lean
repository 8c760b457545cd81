import Intcode.Console

namespace Intcode.Console

/-- More instructions than a machine can carry out in a century. -/
def patience : Nat := 4611686018427387904

namespace FileError

/-- The reason behind a failed file operation. -/
def ofSystem : IO.Error → FileError
  | .noFileOrDirectory .. => .notFound
  | .inappropriateType _ 21 _ => .isDirectory
  | .inappropriateType _ _ _ => .notDirectory
  | error => .other (toString error)

end FileError

def decodeText (bytes : ByteArray) : Except FileError String :=
  match String.fromUTF8? bytes with
  | some text => .ok text
  | none => .error .notUtf8

def readSystemFile (path : String) : IO (Except FileError String) := do
  try return decodeText (← IO.FS.readBinFile path)
  catch error => return .error (.ofSystem error)

def writeSystemFile (path text : String) : IO (Except FileError Unit) := do
  try return .ok (← IO.FS.writeFile path text)
  catch error => return .error (.ofSystem error)

/-- Reads a line byte by byte. `line` holds its bytes so far. -/
partial def readBytes (stream : IO.FS.Stream) (line : ByteArray) : IO (Option ByteArray) := do
  let chunk ← stream.read 1
  match chunk.data[0]? with
  | none => return if line.isEmpty then none else some line
  | some byte =>
      if byte ≠ 10 then readBytes stream (line.push byte)
      else if line.data.back? = some 13 then return some (line.extract 0 (line.size - 1))
      else return some line

def readSystemLine : IO (Option (Except FileError String)) := do
  try return (← readBytes (← IO.getStdin) ByteArray.empty).map decodeText
  catch error => return some (.error (.ofSystem error))

def systemHost : Host IO where
  readFile := readSystemFile
  writeFile := writeSystemFile
  readLine := readSystemLine
  print := IO.println
  complain := IO.eprintln
  log := IO.eprintln

end Intcode.Console

open Intcode.Console in
def main (arguments : List String) : IO UInt32 := do
  let filterText? ← IO.getEnv "RUST_LOG"
  match ← run systemHost filterText? patience arguments with
  | some exit => return exit.code
  | none => return Exit.failure.code
