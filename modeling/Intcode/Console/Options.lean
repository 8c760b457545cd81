import Intcode.Word.Decimal

namespace Intcode.Console

/-! # Command-line options

Arguments are read from left to right; the first one that is wrong, or asks for
help or the version, decides. An option with a value takes it from its own
argument, behind `=` or, for a short option, directly, or else from the next
argument. Short options can be written together. Behind `--` there is only the
file.
-/

/-- What the command line says besides the file. -/
structure Settings where
  assembly : Bool := false
  /-- Where the text of an assembled program goes. -/
  output : Option String := none
  /-- Is the program only loaded? -/
  noExec : Bool := false
  input : List Word := []
  /-- Do input values come from standard input? -/
  stdin : Bool := false
  phases : List Word := []
  /-- Are several machines a chain rather than a ring? -/
  chain : Bool := false
  /-- Is the final memory printed? -/
  dumpMemory : Bool := false
  /-- How often more log was asked for. -/
  verbosity : Nat := 0
deriving DecidableEq, Repr

structure Options extends Settings where
  file : String
deriving DecidableEq, Repr

/-- Why there is nothing to run. -/
inductive Stop where
  | usage
  | help
  | version
deriving DecidableEq, Repr

inductive Flag where
  | assembly
  | noExec
  | stdin
  | chain
  | dumpMemory
  | verbose
  | help
  | version
deriving DecidableEq, Repr

inductive Setting where
  | output
  | input
  | phases
deriving DecidableEq, Repr

inductive Choice where
  | flag (flag : Flag)
  | setting (setting : Setting)
deriving DecidableEq, Repr

namespace Choice

def ofShort? : Char → Option Choice
  | 'a' => some (.flag .assembly)
  | 'o' => some (.setting .output)
  | 'n' => some (.flag .noExec)
  | 'i' => some (.setting .input)
  | 'p' => some (.setting .phases)
  | 'm' => some (.flag .dumpMemory)
  | 'v' => some (.flag .verbose)
  | 'h' => some (.flag .help)
  | 'V' => some (.flag .version)
  | _ => none

def ofLong? : String → Option Choice
  | "assembly" => some (.flag .assembly)
  | "output" => some (.setting .output)
  | "no-exec" => some (.flag .noExec)
  | "input" => some (.setting .input)
  | "stdin" => some (.flag .stdin)
  | "phases" => some (.setting .phases)
  | "chain" => some (.flag .chain)
  | "dump-memory" => some (.flag .dumpMemory)
  | "verbose" => some (.flag .verbose)
  | "help" => some (.flag .help)
  | "version" => some (.flag .version)
  | _ => none

end Choice

structure Draft where
  file : Option String := none
  settings : Settings := {}
deriving DecidableEq, Repr

namespace Draft

/-- Reads comma-separated words, none of them blank. -/
def readWords (value : String) : Except Stop (List Word) :=
  (value.toList.splitOn ',').mapM fun piece => (Word.parse piece).mapError fun _ => .usage

/-- Takes a flag. Only `verbose` can be repeated. -/
def raise (draft : Draft) (flag : Flag) : Except Stop Draft :=
  let settings := draft.settings
  let once (given : Bool) (settings : Settings) : Except Stop Draft :=
    if given then .error .usage else .ok { draft with settings }
  match flag with
  | .assembly => once settings.assembly { settings with assembly := true }
  | .noExec => once settings.noExec { settings with noExec := true }
  | .stdin => once settings.stdin { settings with stdin := true }
  | .chain => once settings.chain { settings with chain := true }
  | .dumpMemory => once settings.dumpMemory { settings with dumpMemory := true }
  | .verbose => once false { settings with verbosity := settings.verbosity + 1 }
  | .help => .error .help
  | .version => .error .version

/-- Takes an option's value. Words add up over several uses; an output file is
named once. -/
def put (draft : Draft) (setting : Setting) (value : String) : Except Stop Draft :=
  let settings := draft.settings
  match setting with
  | .output =>
      if value.isEmpty || settings.output.isSome then .error .usage
      else .ok { draft with settings := { settings with output := some value } }
  | .input => do
      let words ← readWords value
      pure { draft with settings := { settings with input := settings.input ++ words } }
  | .phases => do
      let words ← readWords value
      pure { draft with settings := { settings with phases := settings.phases ++ words } }

def place (draft : Draft) (argument : String) : Except Stop Draft :=
  if argument.isEmpty || draft.file.isSome then .error .usage
  else .ok { draft with file := some argument }

/-- Reads short options that are written together. The last one may still need
its value from the next argument. -/
def readShort (draft : Draft) : List Char → Except Stop (Draft × Option Setting)
  | [] => .ok (draft, none)
  | name :: rest =>
      match Choice.ofShort? name, rest with
      | none, _ => .error .usage
      | some (.flag flag), rest => do readShort (← draft.raise flag) rest
      | some (.setting setting), [] => .ok (draft, some setting)
      | some (.setting setting), '=' :: value => do
          pure (← draft.put setting (String.ofList value), none)
      | some (.setting setting), value => do
          pure (← draft.put setting (String.ofList value), none)

/-- Reads a long option, given without its two dashes. -/
def readLong (draft : Draft) (text : List Char) : Except Stop (Draft × Option Setting) :=
  let name := String.ofList (text.takeWhile (· ≠ '='))
  let value? := (text.dropWhile (· ≠ '=')).tail?.map String.ofList
  match Choice.ofLong? name, value? with
  | none, _ => .error .usage
  | some (.flag flag), none => do pure (← draft.raise flag, none)
  | some (.flag _), some _ => .error .usage
  | some (.setting setting), none => .ok (draft, some setting)
  | some (.setting setting), some value => do pure (← draft.put setting value, none)

end Draft

namespace Setting

/-- Can the value, as an argument of its own, begin with a dash? -/
def allowsDash : Setting → Bool
  | output => false
  | input | phases => true

end Setting

/-- Does an argument begin with a dash that is not all of it? -/
def isDashed (argument : String) : Bool :=
  match argument.toList with
  | '-' :: _ :: _ => true
  | _ => false

namespace Draft

/-- Reads arguments behind `--`. -/
def readFiles (draft : Draft) (arguments : List String) : Except Stop Draft :=
  arguments.foldlM place draft

/-- Reads arguments. The option before them may still need its value. -/
def readArguments (draft : Draft) (awaiting : Option Setting) :
    List String → Except Stop Draft
  | [] => if awaiting.isSome then .error .usage else .ok draft
  | argument :: rest =>
      match awaiting with
      | some setting =>
          if isDashed argument && !setting.allowsDash then .error .usage
          else do readArguments (← draft.put setting argument) none rest
      | none =>
          match argument.toList with
          | ['-', '-'] => draft.readFiles rest
          | '-' :: '-' :: text => do
              let (draft, awaiting) ← draft.readLong text
              readArguments draft awaiting rest
          | '-' :: name :: text => do
              let (draft, awaiting) ← draft.readShort (name :: text)
              readArguments draft awaiting rest
          | _ => do readArguments (← draft.place argument) none rest

/-- The options, once all arguments are read: there has to be a file, standard
input excludes given values, and a chain needs phases. -/
def finish (draft : Draft) : Except Stop Options :=
  match draft.file with
  | none => .error .usage
  | some file =>
      let settings := draft.settings
      if settings.stdin && !settings.input.isEmpty then .error .usage
      else if settings.chain && settings.phases.isEmpty then .error .usage
      else .ok { settings with file }

end Draft

namespace Options

/-- Reads a command line. -/
def ofArguments (arguments : List String) : Except Stop Options := do
  (← ({} : Draft).readArguments none arguments).finish

end Options

end Intcode.Console
