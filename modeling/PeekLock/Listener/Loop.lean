import PeekLock.Listener.Receiver
import PeekLock.Settings

/-! # Listen loops

A loop receives one message after the other and hands each to its receiver, with a pause after every
round.  It ends once its scope is cancelled: at the top of a round, while it
waits for a message, with a message just taken, which it gives back, or in the pause.
-/

namespace PeekLock

abbrev QueueId := Nat

abbrev ScopeId := Nat

/-- What goes wrong between a loop and its queue on purpose. -/
structure Faults where
  /-- The receive calls that fail, counted from zero. -/
  failingReceives : List Nat := []
  /-- The receive call after which the loop's scope is cancelled. -/
  cancelAfter : Option Nat := none
  /-- Whether messages cannot be abandoned. -/
  failsAbandon : Bool := false
deriving DecidableEq, Repr, Inhabited

/-- Where a loop stands. -/
inductive LoopStage where
  /-- It has not run yet. -/
  | starting
  /-- At the top of a round. -/
  | checking
  /-- In a receive that ends at the deadline, about to ask to be told of messages. -/
  | entering (deadline : Nat)
  /-- About to look for a message. -/
  | looking (deadline : Nat)
  /-- Waiting for a message. -/
  | waiting (deadline : Nat)
  /-- A message has been taken, and the receiver has not been called yet. -/
  | taken (message : Envelope)
  /-- The receiver works on a message, with the commands left. -/
  | handling (message : Envelope) (plan : List Command)
  /-- The receiver waits. -/
  | delayed (due : Nat) (message : Envelope) (plan : List Command)
  /-- Between two rounds. -/
  | pausing (due : Nat)
  | stopped
deriving Repr

/-- A listen loop. -/
structure Loop where
  queue : QueueId
  correlationId : String
  receiver : Receiver
  options : ListenOptions
  /-- Cancelled to end the loop. -/
  scope : ScopeId
  faults : Faults
  /-- The number of receive calls made. -/
  calls : Nat
  notebook : Notebook
  stage : LoopStage

namespace Loop

/-- A loop that has not run yet. -/
def new (queue : QueueId) (correlationId : String) (receiver : Receiver)
    (options : ListenOptions) (scope : ScopeId) (faults : Faults) : Loop :=
  ⟨queue, correlationId, receiver, options, scope, faults, 0, {}, .starting⟩

def isStopped (l : Loop) : Bool :=
  match l.stage with
  | .stopped => true
  | _ => false

/-- Whether the loop watches its scope while it is blocked. -/
def isWatching (l : Loop) : Bool :=
  match l.stage with
  | .waiting _ | .pausing _ => true
  | _ => false

end Loop

end PeekLock
