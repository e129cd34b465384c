import PeekLock.Error

/-! # Errors of the command line

Each error has a wording and an exit code.
-/

namespace PeekLock

/-- Why the settings of a command are not to be had. -/
inductive ConfigError where
  | fileNotFound (path : String)
  | invalid (error : ConfigurationError)
  | unrenderable (reason : String)
deriving DecidableEq, Repr

def ConfigError.message : ConfigError → String
  | .fileNotFound path => "Configuration file not found: " ++ path
  | .invalid error => error.message
  | .unrenderable reason => "Failed to render configuration: " ++ reason

/-- Why a command fails. -/
inductive CliError where
  | configuration (error : ConfigError)
  | queue (error : QueueError)
  | commandFailed (reason : String)
  | invalidArgument (argument reason : String)
deriving DecidableEq, Repr

namespace CliError

def message : CliError → String
  | .configuration error => "Configuration error: " ++ error.message
  | .queue error => "Queue error: " ++ error.message
  | .commandFailed reason => "Command failed: " ++ reason
  | .invalidArgument argument reason => "Invalid argument: " ++ argument ++ " - " ++ reason

def exitCode : CliError → UInt8
  | .configuration _ => 1
  | .queue _ => 2
  | .commandFailed _ => 3
  | .invalidArgument .. => 4

end CliError

end PeekLock
