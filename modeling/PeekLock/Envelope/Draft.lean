import PeekLock.Envelope.Wire

/-! # Drafts

How an envelope comes into being outside a queue.  A fresh envelope takes the next
number of a run for its identifier; one that is read from its wire form has its own.  A draft may
put another identifier in place afterwards.
-/

namespace PeekLock

/-- Where the contents of a draft come from. -/
inductive DraftSource where
  | empty
  | new (correlationId messageType : String) (payload : Octets)
  /-- The payload is the JSON text of a document. -/
  | document (correlationId messageType : String) (d : Document)
  /-- The whole envelope in its wire form. -/
  | wire (json : String)

/-- An envelope to be made. -/
structure Draft where
  source : DraftSource
  /-- Replaces the identifier. -/
  id : Option MessageId := none

namespace Draft

/-- The envelope of a draft, with the number for the next fresh identifier. -/
def make (d : Draft) (next : Nat) : Except SerializationError (Envelope × Nat) := do
  let (e, next) ← (match d.source with
    | .empty => .ok (Envelope.empty, next)
    | .new c t payload => .ok (Envelope.new (.numbered next) c t payload, next + 1)
    | .document c t doc => do
      let e ← Envelope.ofDocument (.numbered next) c t doc
      return (e, next + 1)
    | .wire json => do
      let e ← Envelope.ofJson json
      return (e, next))
  return (match d.id with
    | some id => { e with messageId := id }
    | none => e, next)

end Draft

end PeekLock
