import PeekLock.Json.Document
import PeekLock.Json.Reader
import PeekLock.MessageId
import PeekLock.Time.Rfc3339

/-! # Envelopes

The unit of transport: a payload of octets with the identifiers and the type that travel
with it.  An envelope that a consumer has checked out also carries the token of its lock.  No
way to make or edit an envelope sets the token; only a queue does.
-/

namespace PeekLock

/-- The handle of a lock: the queue instance that gave it out, and the place in that instance's
    sequence. -/
structure LockToken where
  owner : Nat
  sequence : Nat
deriving DecidableEq, Repr

namespace LockToken

/-- The order of tokens: by owner, then by sequence. -/
def compare (a b : LockToken) : Ordering :=
  match Ord.compare a.owner b.owner with
  | .eq => Ord.compare a.sequence b.sequence
  | other => other

/-- Whether a token comes no later than another. -/
def le (a b : LockToken) : Bool :=
  a.compare b ≠ .gt

/-- The order of what may be tokens: none comes before any. -/
def compareOptional : Option LockToken → Option LockToken → Ordering
  | none, none => .eq
  | none, some _ => .lt
  | some _, none => .gt
  | some a, some b => a.compare b

def display (t : LockToken) : String :=
  "lock-" ++ toString t.owner ++ "-" ++ toString t.sequence

def describe (t : LockToken) : String :=
  "LockToken \x7b owner: " ++ toString t.owner ++ ", sequence: " ++ toString t.sequence ++ " \x7d"

end LockToken

/-- A message with what travels along. -/
structure Envelope where
  /-- Ties together what belongs to one transaction. -/
  correlationId : String
  messageId : MessageId
  messageType : String
  /-- When a queue last accepted the envelope. -/
  sentTime : Option Timestamp
  payload : Octets
  /-- The lock under which the envelope is checked out. -/
  reference : Option LockToken
deriving DecidableEq, Repr, Inhabited

namespace Envelope

/-- The envelope without identifier, type or payload. -/
def empty : Envelope :=
  ⟨"", .empty, "", none, [], none⟩

/-- An envelope that has not been sent yet. -/
def new (id : MessageId) (correlationId messageType : String) (payload : Octets) : Envelope :=
  ⟨correlationId, id, messageType, none, payload, none⟩

/-- An envelope with the JSON text of a document for its payload. -/
def ofDocument (id : MessageId) (correlationId messageType : String) (d : Document) :
    Except SerializationError Envelope :=
  match d.encode with
  | .ok payload => .ok (new id correlationId messageType payload)
  | .error failure => .error (.json failure)

/-- The same envelope without the token of a lock. -/
def withoutReference (e : Envelope) : Envelope :=
  { e with reference := none }

/-! ## The payload as text -/

/-- The payload as text, with replacements for octets that are no text. -/
def text (e : Envelope) : String :=
  Utf8.decodeLossy e.payload

/-- The payload as text, if it is one. -/
def text? (e : Envelope) : Except SerializationError String :=
  match Utf8.decode? e.payload with
  | some s => .ok s
  | none => .error .invalidUtf8

def setText (e : Envelope) (s : String) : Envelope :=
  { e with payload := Utf8.encode s }

/-! ## The payload as JSON -/

/-- The payload read as JSON of some type; nothing if it is empty or does not fit. -/
def json? {α : Type} (e : Envelope) (reader : Json.Reader α) : Option α :=
  if e.payload.isEmpty then none
  else
    match Json.Reader.run reader e.payload with
    | .ok v => some v
    | .error _ => none

/-- The payload as a JSON value. -/
def value? (e : Envelope) : Option Json :=
  e.json? (Json.readValue Json.maxDepth)

/-- Puts the JSON text of a document's value for the payload.  The null value leaves it empty,
    and a document without value leaves the envelope as it is. -/
def setDocument (e : Envelope) (d : Document) : Envelope :=
  match d.value with
  | .error _ => e
  | .ok .null => { e with payload := [] }
  | .ok v => { e with payload := v.octets }

/-! ## Display -/

/-- A text, or three hyphens where there is none. -/
def orPlaceholder (s : String) : String :=
  if s.isEmpty then "---" else s

def display (e : Envelope) : String :=
  "[" ++ orPlaceholder e.correlationId ++ "," ++ orPlaceholder e.messageType ++ "," ++
    orPlaceholder e.text ++ "]"

end Envelope

end PeekLock
