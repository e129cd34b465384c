import PeekLock.CommandLine.Arguments
import PeekLock.CommandLine.LogFilter
import PeekLock.Settings.Load

/-! # Running a command line

From arguments, files and variables to the text that is printed and the exit code.  Nothing here
takes time: a demo runs in the time of its own clock and tells how much that was.
-/

namespace PeekLock.CommandLine

def versionText : String := "memqueue 0.1.0"

def helpText : String :=
  "In-process message queue with lock-based delivery\n\n" ++
  "Usage: memqueue [OPTIONS] <COMMAND>\n\n" ++
  "Commands:\n" ++
  "  demo    Send messages and consume them with a listen loop\n" ++
  "  config  Show the resolved configuration\n" ++
  "  help    Print this message or the help of the given subcommand(s)\n\n" ++
  "Options:\n" ++
  "  -c, --config <CONFIG>        Configuration file path [env: MEMQUEUE_CONFIG=]\n" ++
  "  -l, --log-level <LOG_LEVEL>  Logging level [default: info]\n" ++
  "      --json-logs              Enable JSON logging\n" ++
  "  -h, --help                   Print help\n" ++
  "  -V, --version                Print version"

/-- What a run of the program comes to. -/
structure Outcome where
  code : UInt8
  /-- What is printed. -/
  output : String
  /-- The line about an error. -/
  error : Option String
  /-- The milliseconds that it takes. -/
  took : Nat
deriving DecidableEq, Repr

namespace Outcome

def printed (text : String) (took : Nat) : Outcome :=
  ⟨0, text ++ "\n", none, took⟩

def failed (e : CliError) : Outcome :=
  ⟨e.exitCode, "", some ("Error: " ++ e.message), 0⟩

/-- A run that breaks off without a report. -/
def broken : Outcome :=
  ⟨101, "", none, 0⟩

/-- A run whose arguments are refused or ask for help. -/
def ofUsage : UsageError → Outcome
  | .help => printed helpText 0
  | .version => printed versionText 0
  | _ => ⟨2, "", none, 0⟩

end Outcome

/-- Settings for a command: the path that is given has to lead to something. -/
def loadSettings (d : Directory) (environment : List (String × String)) (path : Option String) :
    Except ConfigError Settings :=
  match path.filter fun path => !d.hasPath path with
  | some path => .error (.fileNotFound path)
  | none =>
    match Settings.load d environment path with
    | .ok s => .ok s
    | .error e => .error (.invalid e)

/-- The variable that wins over the level of the log given as an argument. -/
def logVariable : String := "RUST_LOG"

/-- Checks the level of the log.  The environment may give one; if that is none, the argument
    counts. -/
def checkLogLevel (environment : List (String × String)) (level : String) :
    Except LogFilter.Fault Unit :=
  match environment.lookup logVariable with
  | none => LogFilter.check level
  | some given =>
    match LogFilter.check given with
    | .error .refused => LogFilter.check level
    | result => result

/-- The outcome of a level of the log that is none. -/
def Outcome.ofFault : LogFilter.Fault → Outcome
  | .refused => failed (.invalidArgument "log-level" "invalid filter directive")
  | .broken => broken

/-- What a command prints, with the milliseconds that it takes. -/
def perform (start : Timestamp) (correlationId : String) (s : Settings) :
    Action → Except CliError (String × Nat)
  | .demo o => do
    let (summary, took) ← Demo.run start correlationId s o
    return (summary.display, took)
  | .showSettings format => .ok (s.render format, 0)

/-- A command, once its arguments have been read and the log has been set up. -/
def execute (start : Timestamp) (correlationId : String) (d : Directory)
    (environment : List (String × String)) (i : Invocation) : Except CliError (String × Nat) := do
  let s ← (match loadSettings d environment i.config with
    | .ok s => .ok s
    | .error e => .error (CliError.configuration e))
  perform start correlationId s i.action

def run (start : Timestamp) (correlationId : String) (d : Directory)
    (environment : List (String × String)) (args : List String) : Outcome :=
  match parse args environment with
  | .error usage => .ofUsage usage
  | .ok i =>
    match checkLogLevel environment i.logLevel with
    | .error fault => .ofFault fault
    | .ok () =>
      match execute start correlationId d environment i with
      | .ok (text, took) => .printed text took
      | .error e => .failed e

end PeekLock.CommandLine
