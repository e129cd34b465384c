import PeekLock.Json.Record

/-! # Capabilities

Which operations a kind of queue supports.  They are advertised, not enforced.
-/

namespace PeekLock

/-- The operations that a queue supports. -/
structure Capabilities where
  canMessageCount : Bool
  canSend : Bool
  canReceive : Bool
  canPeek : Bool
  canPeekBatch : Bool
  canRenewLock : Bool
  canAbandon : Bool
  /-- Whether dead letters go to a queue of their own. -/
  canDeadLetter : Bool
  canClear : Bool
deriving DecidableEq, Repr

namespace Capabilities

/-- A queue in memory supports everything, but it drops its dead letters. -/
def inMemory : Capabilities :=
  ⟨true, true, true, true, true, true, true, false, true⟩

/-- The capabilities by name, in the order of declaration. -/
def toList (c : Capabilities) : List (String × Bool) := [
  ("can_message_count", c.canMessageCount),
  ("can_send", c.canSend),
  ("can_receive", c.canReceive),
  ("can_peek", c.canPeek),
  ("can_peek_batch", c.canPeekBatch),
  ("can_renew_lock", c.canRenewLock),
  ("can_abandon", c.canAbandon),
  ("can_dead_letter", c.canDeadLetter),
  ("can_clear", c.canClear)]

def names : List String :=
  inMemory.toList.map (·.1)

/-- The capabilities as a JSON value. -/
def toValue (c : Capabilities) : Json :=
  .object (c.toList.map fun (name, b) => (name, .bool b))

/-- The capabilities with the given answers, or the first name without one. -/
def ofAnswers (answers : List (String × Bool)) : Except String Capabilities := do
  let answer (name : String) : Except String Bool :=
    match answers.lookup name with
    | some b => .ok b
    | none => .error name
  return ⟨← answer "can_message_count", ← answer "can_send", ← answer "can_receive",
    ← answer "can_peek", ← answer "can_peek_batch", ← answer "can_renew_lock",
    ← answer "can_abandon", ← answer "can_dead_letter", ← answer "can_clear"⟩

def record : Json.Record (List (String × Bool)) Capabilities where
  name := "MessagingCapabilities"
  lenient := false
  empty := []
  finish := ofAnswers
  fields := names.map fun name => {
    name := name
    given := fun answers => (answers.lookup name).isSome
    read := fun _ answers bs => do
      let (b, rest) ← Json.readBool bs
      return ((name, b) :: answers, rest) }

end Capabilities

end PeekLock
