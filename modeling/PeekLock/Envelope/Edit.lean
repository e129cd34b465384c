import PeekLock.Envelope.Wire
import PeekLock.Json.Shape

/-! # Edits and views of envelopes

What the holder of an envelope can do with it.  No edit sets the token of a lock, and only
`reload` erases it.  An edit that is refused leaves the envelope as it is.
-/

namespace PeekLock

/-- Something done with an envelope. -/
inductive Edit where
  | setText (s : String)
  | setDocument (d : Document)
  | setPayload (octets : Octets)
  /-- Sets the time of sending by a written timestamp, or removes it. -/
  | setSentTime (s : Option String)
  | setCorrelationId (s : String)
  | setMessageType (s : String)
  | setMessageId (s : String)
  /-- Shows the envelope. -/
  | inspect
  /-- Shows the payload as text, with replacements. -/
  | text
  /-- Shows the payload as text, if it is one. -/
  | strictText
  /-- Shows the payload as JSON of some shape. -/
  | payload (shape : Json.Shape)
  | display
  | wire
  /-- Goes through the wire form and back. -/
  | reload

/-- Why an edit is refused. -/
inductive EditError where
  | time (error : TimeError)
  | validation (error : ValidationError)
  | serialization (error : SerializationError)
deriving DecidableEq, Repr

/-- What an edit answers. -/
inductive EditAnswer where
  | envelope (e : Envelope)
  | text (s : String)
  | strictText (s : String)
  | payload (v : Option Json)
  /-- The envelope that came back, and whether it is the one that went out. -/
  | reloaded (same : Bool) (e : Envelope)
  | refused (error : EditError)

namespace Edit

/-- An edit that gave an envelope or was refused. -/
def settled (e : Envelope) : Except EditError Envelope → Envelope × EditAnswer
  | .ok e => (e, .envelope e)
  | .error error => (e, .refused error)

/-- The envelope after an edit, and the answer. -/
def apply (e : Envelope) : Edit → Envelope × EditAnswer
  | .setText s => settled e (.ok (e.setText s))
  | .setDocument d => settled e (.ok (e.setDocument d))
  | .setPayload octets => settled e (.ok { e with payload := octets })
  | .setSentTime none => settled e (.ok { e with sentTime := none })
  | .setSentTime (some s) =>
    settled e (match Timestamp.parse s with
      | .ok t => .ok { e with sentTime := some t }
      | .error error => .error (.time error))
  | .setCorrelationId s => settled e (.ok { e with correlationId := s })
  | .setMessageType s => settled e (.ok { e with messageType := s })
  | .setMessageId s =>
    settled e (match MessageId.parse s with
      | .ok id => .ok { e with messageId := id }
      | .error error => .error (.validation error))
  | .inspect => (e, .envelope e)
  | .text => (e, .text e.text)
  | .strictText =>
    (e, match e.text? with
      | .ok s => .strictText s
      | .error error => .refused (.serialization error))
  | .payload shape => (e, .payload (e.json? shape.reader))
  | .display => (e, .text e.display)
  | .wire => (e, .text e.toJson)
  | .reload =>
    match Envelope.ofJson e.toJson with
    | .ok back => (back, .reloaded (back = e) back)
    | .error error => (e, .refused (.serialization error))

/-- The envelope after several edits, and their answers. -/
def applyAll (e : Envelope) : List Edit → Envelope × List EditAnswer
  | [] => (e, [])
  | edit :: rest =>
    let (e, answer) := edit.apply e
    let (e, answers) := applyAll e rest
    (e, answer :: answers)

end Edit

end PeekLock
