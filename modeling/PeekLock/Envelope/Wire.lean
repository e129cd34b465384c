import PeekLock.Envelope
import PeekLock.Json.Record
import PeekLock.Text.Base64

/-! # The wire form of envelopes

An envelope travels as a JSON object with the payload in base64 and the time of sending in
RFC 3339.  The token of a lock does not travel: it is neither written nor read.
-/

namespace PeekLock.Envelope

/-! ## Writing -/

/-- Octets of ASCII as text. -/
def asciiText (bs : Octets) : String :=
  String.ofList (bs.map fun b => Char.ofNat b.toNat)

/-- The envelope as a JSON value, its members in the order of declaration. -/
def toValue (e : Envelope) : Json :=
  .object [
    ("correlation_id", .text e.correlationId),
    ("message_id", .text e.messageId.text),
    ("message_type", .text e.messageType),
    ("sent_time", match e.sentTime with
      | some t => .text t.toWire
      | none => .null),
    ("message", .text (asciiText (Base64.encode e.payload)))]

def toJson (e : Envelope) : String :=
  e.toValue.render

/-! ## Reading -/

def timeExpected : String :=
  "an RFC 3339 formatted date and time string"

def readTimestamp : Json.Reader Timestamp := fun bs =>
  match Json.skipBlanks bs with
  | 0x22 :: rest => do
    let (s, rest) ← Json.stringBody rest
    match Timestamp.parse s with
    | .ok t => return (t, rest)
    | .error e => .error (.data e.message)
  | bs => Json.mismatch timeExpected bs

/-- Octets as base64 in a JSON string. -/
def readBase64 : Json.Reader Octets := fun bs => do
  let (s, rest) ← Json.readText bs
  match Base64.decode (Utf8.encode s) with
  | .ok octets => return (octets, rest)
  | .error e => .error (.data e.message)

/-- The fields of an envelope that have been read. -/
structure Parts where
  correlationId : Option String := none
  messageId : Option String := none
  messageType : Option String := none
  /-- Whether there is a time, once the field has been read. -/
  sentTime : Option (Option Timestamp) := none
  payload : Option Octets := none

/-- The envelope of its parts; only the time may be missing. -/
def Parts.finish (p : Parts) : Except String Envelope :=
  match p.correlationId, p.messageId, p.messageType, p.payload with
  | some c, some id, some t, some payload =>
    .ok ⟨c, ⟨id⟩, t, p.sentTime.getD none, payload, none⟩
  | none, _, _, _ => .error "correlation_id"
  | _, none, _, _ => .error "message_id"
  | _, _, none, _ => .error "message_type"
  | _, _, _, none => .error "message"

def record : Json.Record Parts Envelope where
  name := "MessageEnvelope"
  lenient := false
  empty := {}
  finish := Parts.finish
  fields := [
    { name := "correlation_id"
      given := (·.correlationId.isSome)
      read := fun _ p bs => do
        let (v, rest) ← Json.readText bs
        return ({ p with correlationId := some v }, rest) },
    { name := "message_id"
      given := (·.messageId.isSome)
      read := fun _ p bs => do
        let (v, rest) ← Json.readText bs
        return ({ p with messageId := some v }, rest) },
    { name := "message_type"
      given := (·.messageType.isSome)
      read := fun _ p bs => do
        let (v, rest) ← Json.readText bs
        return ({ p with messageType := some v }, rest) },
    { name := "sent_time"
      given := (·.sentTime.isSome)
      read := fun _ p bs => do
        let (v, rest) ← Json.readOption readTimestamp bs
        return ({ p with sentTime := some v }, rest) },
    { name := "message"
      given := (·.payload.isSome)
      read := fun _ p bs => do
        let (v, rest) ← readBase64 bs
        return ({ p with payload := some v }, rest) }]

def ofJson (s : String) : Except SerializationError Envelope :=
  match record.parse s with
  | .ok e => .ok e
  | .error failure => .error (.json failure)

end PeekLock.Envelope
