import Intcode.Console

namespace Intcode.Console

/-- The names that lead to a file from the directory, or the root first. -/
abbrev Route := List String

/-- What a file or an input line holds. -/
inductive Content where
  | text (value : String)
  | undecodable
deriving DecidableEq, Repr

namespace Content

def read : Content → Except FileError String
  | text value => .ok value
  | undecodable => .error .notUtf8

/-- Text in UTF-8. -/
def ofBytes (bytes : List UInt8) : Content :=
  match String.fromUTF8? bytes.toByteArray with
  | some decoded => text decoded
  | none => undecodable

/-- Takes the carriage return off a line of bytes. -/
def dropReturn (line : List UInt8) : List UInt8 :=
  if line.getLast? = some 13 then line.dropLast else line

/-- The lines between the line feeds of a byte text. The last piece is a line
if there is any, and keeps a carriage return. -/
def ofPieces : List (List UInt8) → List Content
  | [] => []
  | [last] => if last.isEmpty then [] else [ofBytes last]
  | line :: rest => ofBytes (dropReturn line) :: ofPieces rest

/-- The lines of a byte text, each decoded on its own. -/
def linesOfBytes (bytes : List UInt8) : List Content :=
  ofPieces (bytes.splitOn 10)

end Content

/-- A directory of text files with the console's input beside it and all that
the console prints. -/
structure Desk where
  files : List (Route × Content) := []
  /-- The lines of standard input that were not read yet. -/
  input : List Content := []
  output : Array String := #[]
  complaints : Array String := #[]
  log : Array String := #[]
deriving DecidableEq, Repr

inductive Target where
  | directory
  | file (route : Route) (content : Content)
  /-- Nothing yet, in a directory. -/
  | absent (route : Route)
deriving DecidableEq, Repr

namespace Desk

/-- The directories that every root has. -/
def systemDirectories : List String :=
  ["bin", "boot", "dev", "etc", "home", "lib", "media", "mnt", "opt", "proc", "root", "run",
   "sbin", "srv", "sys", "tmp", "usr", "var"]

/-- The directory itself, those around it, the root and those of the system are
directories. -/
def isDirectory (route : Route) : Bool :=
  route.all (· = "..") || route = ["/"] ||
    systemDirectories.any fun name => route = ["/", name]

/-- What is written there is lost, and what is read is empty. -/
def nullDevice : Route := ["/", "dev", "null"]

def content? (desk : Desk) (route : Route) : Option Content :=
  if route = nullDevice then some (.text "")
  else (desk.files.find? fun file => file.1 = route).map Prod.snd

def parent (route : Route) : Route :=
  if route = ["/"] then route
  else if route.all (· = "..") then ".." :: route
  else route.dropLast

/-- Follows the steps of a path from a directory. -/
def follow (desk : Desk) (route : Route) : List String → Except FileError Target
  | [] => .ok .directory
  | step :: rest =>
      if step.isEmpty || step = "." then follow desk route rest
      else if step = ".." then follow desk (parent route) rest
      else if 255 < step.utf8ByteSize then .error .nameTooLong
      else
        let next := route ++ [step]
        match desk.content? next with
        | some content =>
            if rest.isEmpty then .ok (.file next content) else .error .notDirectory
        | none =>
            if isDirectory next then follow desk next rest
            else if rest.isEmpty then .ok (.absent next)
            else .error .notFound

def steps (path : String) : List String :=
  (path.toList.splitOn '/').map String.ofList

/-- The steps to the directory in which the last name of a path is looked up. -/
def stepsAround (path : String) : List String :=
  ((steps path).reverse.dropWhile String.isEmpty).tail.reverse ++ ["."]

def locate (desk : Desk) (path : String) (steps : List String) : Except FileError Target :=
  if 4096 ≤ path.utf8ByteSize then .error .nameTooLong
  else desk.follow (if path.toList.head? = some '/' then ["/"] else []) steps

def textAt (desk : Desk) (path : String) : Except FileError String :=
  match desk.locate path (steps path) with
  | .error error => .error error
  | .ok .directory => .error .isDirectory
  | .ok (.file _ content) => content.read
  | .ok (.absent _) => .error .notFound

/-- Puts a text into a file, in place of what it held. -/
def store (desk : Desk) (route : Route) (text : String) : Desk :=
  if route = nullDevice then desk
  else { desk with files := (route, .text text) :: desk.files.filter fun file => file.1 ≠ route }

/-- Writes a file. A path that ends in a slash is one of a directory, whether it
is there or not. -/
def writeFile (desk : Desk) (path text : String) : Except FileError Unit × Desk :=
  if path.toList.getLast? = some '/' then
    match desk.locate path (stepsAround path) with
    | .error error => (.error error, desk)
    | .ok _ => (.error .isDirectory, desk)
  else
    match desk.locate path (steps path) with
    | .error error => (.error error, desk)
    | .ok .directory => (.error .isDirectory, desk)
    | .ok (.file route _) | .ok (.absent route) => (.ok (), desk.store route text)

def readLine (desk : Desk) : Option (Except FileError String) × Desk :=
  (desk.input.head?.map Content.read, { desk with input := desk.input.tail })

/-- A desk as the host of a console. -/
def host : Host (StateM Desk) where
  readFile path := do pure ((← get).textAt path)
  writeFile path text := modifyGet fun desk => desk.writeFile path text
  readLine := modifyGet readLine
  print line := modify fun desk => { desk with output := desk.output.push line }
  complain line := modify fun desk => { desk with complaints := desk.complaints.push line }
  log line := modify fun desk => { desk with log := desk.log.push line }

def run (desk : Desk) (filterText? : Option String) (fuel : Nat) (arguments : List String) :
    Option Exit × Desk :=
  (Console.run host filterText? fuel arguments).run desk

end Desk

end Intcode.Console
