import JvmTrace.Command.Host
import JvmTrace.Command.Options
import JvmTrace.Report
import JvmTrace.Trace.Log

/-!
# A run of the command — from arguments to output

A run reads the input, traces it, creates the output and writes the document to it, in this order. Only
the third step can destroy anything, since creating a file empties the one that is there, and by then the
trace is made. The document goes to standard output with a line break behind it, or to a file without
one. Progress and errors go to standard error, and have no part in the document.

The steps are those of a `Host`, whichever it is. `run` is what they come to in a world of files.
-/

set_option autoImplicit false

namespace JvmTrace.Command

/-! ## Texts -/

/-- The settings of the log: those of the options, changed by the setting from outside. -/
def Options.logSettings (o : Options) (setting : Option String) : LogSettings :=
  match setting with
  | some text => (LogSettings.standard o.verbose).override text
  | none => LogSettings.standard o.verbose

/-- The last words of a run that fails. -/
def failureText (e : Error) : String := "Error: " ++ e.report ++ "\n"

/-- Name and version of the command. -/
def versionText : String := "class_trace_utils 0.0.2\n"

/-- How the command is used. -/
def usageLine : String := "Usage: class-trace [OPTIONS] <INPUT>\n"

/-- What the command does and which options it has. -/
def helpText : String :=
  "Traces the bytecode of a java class file into a json document\n\n" ++ usageLine ++
  "\nArguments:\n" ++
  "  <INPUT>  The class file to trace\n" ++
  "\nOptions:\n" ++
  "  -o, --output <OUTPUT>    Where to write the document. Defaults to stdout\n" ++
  "      --kind <KIND>        The label written into the document [default: Controller]\n" ++
  "      --keep-all           Keep every instruction, including local loads\n" ++
  "      --suppress <PREFIX>  Drop instructions whose mnemonic starts with this prefix. Defaults " ++
    "to `iload_` and `aload_`\n" ++
  "      --limit <N>          Only trace the first N instructions of each method\n" ++
  "  -v, --verbose            Show debug output\n" ++
  "  -h, --help               Print help\n" ++
  "  -V, --version            Print version\n"

/-- What is said about a faulty command line. -/
def usageText (e : UsageError) : String :=
  "error: " ++ e.message ++ "\n\n" ++ usageLine ++ "\nFor more information, try '--help'.\n"

/-! ## Steps -/

section

variable {m : Type → Type} {Handle : Type} [Monad m] (host : Host m Handle)

/-- Reads the input and traces it. -/
def Options.produce (o : Options) (setting : Option String) : ExceptT Error m ClassTrace := do
  let log := (o.logSettings setting).log
  let image ← host.read o.input
  host.say (log (.read image.length o.input :: imageEvents o.config image))
  let trace ← traceImage o.config image
  host.say (log [.finished trace])
  return trace

/-- Puts a document where it was asked for: on standard output, with a line break behind it, or in a
file, without one. -/
def Options.deliver (o : Options) (document : String) : ExceptT Error m Unit :=
  match o.output with
  | some path => do
    let file ← host.create path
    host.write file (Text.Utf8.encode document.toList)
  | none => do
    host.print document
    host.print "\n"

/-- All steps of a run with options that have been read. -/
def Options.perform (o : Options) (setting : Option String) : ExceptT Error m Unit := do
  let trace ← o.produce host setting
  o.deliver host trace.json

/-- The code a run ends with: zero for success, one for an error. An error has the last word. -/
def conclude (steps : ExceptT Error m Unit) : m Nat := do
  match ← steps.run with
  | .ok () => return 0
  | .error e => do
    host.say (failureText e)
    return 1

/-- Runs the command. The result is the code it ends with, which is two for a faulty command line. -/
def command (arguments : List String) (setting : Option String) : m Nat :=
  match Options.parse arguments with
  | .ok o => conclude host (o.perform host setting)
  | .error .help => conclude host (host.print helpText)
  | .error .version => conclude host (host.print versionText)
  | .error (.usage e) => do
    host.say (usageText e)
    return 2

end

/-! ## Runs -/

/-- What comes of a run: the world as it leaves it. -/
structure Outcome extends World where
  /-- The code it ends with. -/
  exit : Nat
  deriving DecidableEq

/-- A run of the command, in a world with these files. -/
def run (arguments : List String) (setting : Option String) (files : FileSystem) : Outcome :=
  let (exit, world) := (command World.host arguments setting).run { files }
  { world with exit }

end JvmTrace.Command
