import Intcode.Assembly
import Intcode.Console.Host
import Intcode.Console.LogFilter.Text
import Intcode.Console.Options
import Intcode.Network.Chain
import Intcode.Network.Rotation
import Intcode.Program.Text
import Intcode.Text.Lines

namespace Intcode.Console

inductive Exit where
  | success
  | failure
  | usage
deriving DecidableEq, Repr

namespace Exit

def code : Exit → UInt32
  | success => 0
  | failure => 1
  | usage => 2

end Exit

def versionText : String := "intcodec 0.1.0"

def helpText : List String :=
  ["Run and assemble Intcode programs",
   "",
   "Usage: intcodec [OPTIONS] <FILE>",
   "",
   "Arguments:",
   "  <FILE>  File to execute",
   "",
   "Options:",
   "  -a, --assembly         Assembly file",
   "  -o, --output <OUTPUT>  Output file for assembled program (--assembly)",
   "  -n, --no-exec          Do not execute file",
   "  -i, --input <INPUT>    Comma separated input values",
   "      --stdin            Read input values from stdin, one per line",
   "  -p, --phases <PHASES>  Run a feedback ring of instances with these phase settings",
   "      --chain            Run instances one after another instead of a ring (--phases)",
   "  -m, --dump-memory      Print memory after program halts",
   "  -v, --verbose...       Raise log level, can be repeated",
   "  -h, --help             Print help",
   "  -V, --version          Print version"]

def usageText : List String :=
  ["error: the command line cannot be understood",
   "",
   "Usage: intcodec [OPTIONS] <FILE>",
   "",
   "For more information, try '--help'."]

section
variable {m : Type → Type} [Monad m] (host : Host m)

/-- Logs the events that a filter shows. -/
def logging (filter : LogFilter) (event : Event) : m Unit :=
  if filter.shows event then host.log s!"{event.level.name} {event.message}" else pure ()

def failing (lines : List String) : m Exit := do
  lines.forM host.complain
  pure .failure

/-- What is printed about assembly text that cannot be assembled: the error, and
the line it is about. -/
def assemblyComplaint (file source : String) (error : AssemblyError) : List String :=
  let fragment := (Text.lines source.toList)[error.line - 1]?.getD []
  [s!"error:{file}:{error.line}: {error.message}", String.ofList fragment]

/-- The program in a text, or what to print about an error. -/
def load (report : Event → m Unit) (options : Options) (source : String) :
    m (Except (List String) Program) := do
  if options.assembly then
    match Assembly.Listing.ofSource source with
    | .ok listing =>
        report listing.event
        pure (.ok listing.program)
    | .error error => pure (.error (assemblyComplaint options.file source error))
  else
    match Program.parse source with
    | .ok program => pure (.ok program)
    | .error error => pure (.error [s!"error:{options.file}: {error.message}"])

/-- Takes the next input value from standard input. Blank lines are skipped; a
line that is no word ends the input. -/
def readValue (report : Event → m Unit) : (fuel : Nat) → m Offer
  | 0 => pure .exhausted
  | fuel + 1 => do
      match ← host.readLine with
      | none => pure .exhausted
      | some (.error error) =>
          report (.unreadableInput error.message)
          pure .exhausted
      | some (.ok line) =>
          let text := Text.trim line.toList
          if text.isEmpty then readValue report fuel
          else
            match Word.parse text with
            | .ok word => pure (.value word)
            | .error error =>
                report (.invalidInput (String.ofList text) error)
                pure .exhausted

/-- The ports of a single machine. The state is the input values that are left. -/
def ports (report : Event → m Unit) (fuel : Nat) (options : Options) :
    Ports (StateT (List Word) m) where
  read :=
    if options.stdin then liftM (readValue host report fuel)
    else if options.input.isEmpty then pure .disconnected
    else modifyGet fun words => (.ofValue? words.head?, words.tail)
  write word := liftM (host.print word.render)

def runMachine (report : Event → m Unit) (fuel : Nat) (options : Options) (program : Program) :
    m (Option Exit) := do
  report (.machineCreated program.size)
  if !options.stdin && !options.input.isEmpty then report (.inputGiven options.input.length)
  let (answer, _) ← ((Machine.ofProgram program).run (m := StateT (List Word) m)
    (ports host report fuel options) (fun event => liftM (report event)) fuel).run options.input
  match answer with
  | none => pure none
  | some (.error fault) => some <$> failing host [s!"runtime-error: {fault.message}"]
  | some (.ok memory) =>
      if options.dumpMemory then host.print (Program.render ⟨memory.toList⟩)
      pure (some .success)

/-- Runs a chain or a ring of machines and prints its signal. -/
def runNetwork (report : Event → m Unit) (fuel : Nat) (options : Options) (program : Program) :
    m (Option Exit) := do
  let answer ←
    if options.chain then Chain.run report fuel program options.phases
    else Ring.run report fuel program options.phases
  match answer with
  | none => pure none
  | some (.error error) => some <$> failing host [s!"runtime-error: {error.message}"]
  | some (.ok word) =>
      host.print word.render
      pure (some .success)

/-- Writes the text of an assembled program if it is asked for. -/
def save (options : Options) (program : Program) : m (Except FileError Unit) :=
  match options.assembly, options.output with
  | true, some path => host.writeFile path program.render
  | _, _ => pure (.ok ())

/-- Loads and runs what the options say. -/
def execute (filterText? : Option String) (fuel : Nat) (options : Options) : m (Option Exit) := do
  let report := logging host (LogFilter.choose filterText? options.verbosity)
  match ← host.readFile options.file with
  | .error error =>
      some <$> failing host [s!"Failed to read file to UTF-8: {error.message}"]
  | .ok source =>
      match ← load report options source with
      | .error complaint => some <$> failing host complaint
      | .ok program =>
          report (.programLoaded program.size)
          match ← save host options program with
          | .error error => some <$> failing host [s!"Failed to write to file: {error.message}"]
          | .ok () =>
              if options.noExec then pure (some .success)
              else if options.phases.isEmpty then runMachine host report fuel options program
              else runNetwork host report fuel options program

/-- Runs a command line. The log filter, if there is one, comes from the
environment. Without an answer the fuel was not enough. -/
def run (filterText? : Option String) (fuel : Nat) (arguments : List String) :
    m (Option Exit) := do
  match Options.ofArguments arguments with
  | .ok options => execute host filterText? fuel options
  | .error .help =>
      helpText.forM host.print
      pure (some .success)
  | .error .version =>
      host.print versionText
      pure (some .success)
  | .error .usage =>
      usageText.forM host.complain
      pure (some .usage)

end

end Intcode.Console
