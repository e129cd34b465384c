import PeekLock.Error
import PeekLock.Listener.Loop
import PeekLock.Text.Quoted

/-! # Notices

What a broker notes down, in the order of happening.  Most notices have a line in the log;
a delivery and the end of a wait are for those who follow them.  A notice keeps the messages
themselves, so that the history of a queue can be told from its notices.
-/

namespace PeekLock

/-- Something that has happened. -/
inductive Notice where
  /-- A message became visible, by sending or by abandoning. -/
  | sent (queue : QueueId) (correlationId : String) (message : Envelope)
  | received (queue : QueueId) (correlationId : String) (message : Envelope)
  | completed (queue : QueueId) (token : LockToken) (message : Envelope)
  | deadLettered (queue : QueueId) (token : LockToken) (message : Envelope)
  | abandoned (queue : QueueId) (token : LockToken) (message : Envelope)
  /-- A message was abandoned after its lock had expired. -/
  | dropped (queue : QueueId) (token : LockToken) (message : Envelope)
  /-- Somebody asked to renew a lock, with success or without. -/
  | renewed (queue : QueueId) (token : LockToken) (message : Envelope) (success : Bool)
  /-- Expired locks were swept, and these messages became visible. -/
  | released (queue : QueueId) (correlationId : String) (messages : List Envelope)
  | peeked (queue : QueueId) (correlationId : String) (message : Envelope)
  | peekedBatch (queue : QueueId) (correlationId : String) (count : Nat)
  | opened (queue : QueueId) (correlationId : String) (uri : Option String)
  | closed (queue : QueueId) (correlationId : String)
  | cleared (queue : QueueId) (correlationId : String)
  | listenEnded (queue : QueueId) (correlationId : String)
  | loopStarted (queue : QueueId) (correlationId : String)
  | loopStopped (queue : QueueId) (correlationId : String)
  /-- A loop's receive call failed. -/
  | receiveFailed (queue : QueueId) (correlationId : String) (error : QueueError)
  /-- A receiver failed. -/
  | processFailed (queue : QueueId) (correlationId : String) (error : QueueError)
  /-- A message could not be given back after cancellation. -/
  | returnFailed (queue : QueueId) (correlationId : String) (error : QueueError)
  /-- A loop handed a message to its receiver. -/
  | delivered (task : TaskId) (message : Envelope)
  /-- A receive is over, with a message or without. -/
  | waitEnded (task : TaskId) (message : Option Envelope)

/-- How much a line of the log matters. -/
inductive LogLevel where
  | trace
  | debug
  | error
deriving DecidableEq, Repr

/-- A line of the log with its fields. -/
structure LogLine where
  level : LogLevel
  message : String
  fields : List (String × String)
deriving DecidableEq, Repr

namespace Notice

def queueDisplay (name : String) : String :=
  "memory-queue(" ++ name ++ ")"

/-- A line about a message at a queue, in two words around it. -/
def about (level : LogLevel) (before : String) (e : Envelope) (between : String) (name : String)
    (correlationId : String) (more : List (String × String)) (after : String) : LogLine :=
  ⟨level, before ++ " " ++ e.display ++ " " ++ between ++ " " ++ queueDisplay name ++ after,
    [("correlation_id", correlationId), ("queue", name)] ++ more⟩

def line (level : LogLevel) (message name correlationId : String)
    (more : List (String × String)) : LogLine :=
  ⟨level, message, [("correlation_id", correlationId), ("queue", name)] ++ more⟩

/-- A truth value as a field shows it. -/
def flag (b : Bool) : String :=
  if b then "true" else "false"

/-- The lock of a message as a field shows it. -/
def lockField (e : Envelope) : String :=
  match e.reference with
  | some token => "Some(" ++ token.describe ++ ")"
  | none => "None"

/-- The log line of a notice, if it has one, with the names of the queues. -/
def logLine (nameOf : QueueId → String) : Notice → Option LogLine
  | .sent q c e => some (about .debug "Sent message" e "via" (nameOf q) c [] "")
  | .received q c e =>
    some (about .debug "Received message" e "via" (nameOf q) c [("lock", lockField e)] "")
  | .completed q _ e =>
    some (about .trace "Completed message" e "at" (nameOf q) e.correlationId [] "")
  | .deadLettered q _ e =>
    some (about .trace "Moved to dead letter message" e "at" (nameOf q) e.correlationId [] "")
  | .abandoned q _ e =>
    some (about .trace "Abandoned message" e "at" (nameOf q) e.correlationId [] "")
  | .dropped q _ e =>
    some (about .trace "Skipped abandoning message" e "at" (nameOf q) e.correlationId []
      ": lock expired")
  | .renewed q token e success =>
    some (about .trace "Renewed lock for message" e "at" (nameOf q) e.correlationId
      [("lock", token.display), ("renewed", flag success)] "")
  | .released q c messages =>
    some (line .trace "Released expired locks" (nameOf q) c
      [("released", toString messages.length)])
  | .peeked q c e => some (about .trace "Peeked message" e "on" (nameOf q) c [] "")
  | .peekedBatch q c count =>
    some (line .trace
      ("Peeked " ++ toString count ++ " messages on " ++ queueDisplay (nameOf q)) (nameOf q) c [])
  | .opened q c uri =>
    some (line .trace ("Opened queue " ++ queueDisplay (nameOf q)) (nameOf q) c
      [("uri", Quoted.quoteOption uri)])
  | .closed q c =>
    some (line .trace ("Closed queue " ++ queueDisplay (nameOf q)) (nameOf q) c [])
  | .cleared q c =>
    some (line .trace ("Cleared queue " ++ queueDisplay (nameOf q)) (nameOf q) c [])
  | .listenEnded q c =>
    some (line .trace ("Requested end of listening at " ++ queueDisplay (nameOf q)) (nameOf q) c [])
  | .loopStarted q c => some (line .trace "Started listening messages" (nameOf q) c [])
  | .loopStopped q c => some (line .trace "Stopped listening messages" (nameOf q) c [])
  | .receiveFailed q c error =>
    some (line .error "Failed to receive the message" (nameOf q) c [("error", error.message)])
  | .processFailed q c error =>
    some (line .error "Failed to process the message" (nameOf q) c [("error", error.message)])
  | .returnFailed q c error =>
    some (line .error "Failed to return the message after cancellation" (nameOf q) c
      [("error", error.message)])
  | .delivered .. => none
  | .waitEnded .. => none

end Notice

end PeekLock
