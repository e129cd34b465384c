import PeekLock.Json.Failure

/-! # Errors of queue operations

Causes, each with its wording.  Only a receiver's failure may pass by itself; all other
errors come back when the operation is tried again.
-/

namespace PeekLock

/-- A field that does not keep its rules. -/
inductive ValidationError where
  | required (field : String)
  | invalidFormat (field reason : String)
  | outOfRange (field reason : String)
deriving DecidableEq, Repr

def ValidationError.message : ValidationError → String
  | .required field => "Required field missing: " ++ field
  | .invalidFormat field reason => "Invalid format for " ++ field ++ ": " ++ reason
  | .outOfRange field reason => "Value out of range for " ++ field ++ ": " ++ reason

/-- Settings that cannot be used or read. -/
inductive ConfigurationError where
  | invalid (reason : String)
  | parsing (reason : String)
deriving DecidableEq, Repr

def ConfigurationError.message : ConfigurationError → String
  | .invalid reason => "Invalid configuration: " ++ reason
  | .parsing reason => "Configuration parsing failed: " ++ reason

/-- An envelope or payload that cannot be written or read. -/
inductive SerializationError where
  | json (failure : Json.Failure)
  | invalidUtf8
deriving DecidableEq, Repr

def SerializationError.message : SerializationError → String
  | .json failure => "JSON serialization failed: " ++ failure.message
  | .invalidUtf8 => "Message payload is not valid UTF-8"

/-- An error of a queue operation. -/
inductive QueueError where
  | receiverFailed (messageId reason : String)
  | serialization (error : SerializationError)
  | configuration (error : ConfigurationError)
  | validation (error : ValidationError)
deriving DecidableEq, Repr

namespace QueueError

def message : QueueError → String
  | .receiverFailed messageId reason =>
    "Receiver failed to process message " ++ messageId ++ ": " ++ reason
  | .serialization error => "Serialization failed: " ++ error.message
  | .configuration error => "Configuration error: " ++ error.message
  | .validation error => "Validation error: " ++ error.message

def isTransient : QueueError → Bool
  | .receiverFailed .. => true
  | _ => false

end QueueError

end PeekLock
