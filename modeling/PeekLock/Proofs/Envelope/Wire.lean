import PeekLock.Envelope.Wire
import PeekLock.Proofs.Json.Document
import PeekLock.Proofs.Json.Members
import PeekLock.Proofs.Text.Base64
import PeekLock.Proofs.Time.Rfc3339

/-! # Envelopes come back from their wire form

Whatever an envelope holds, its wire form can be written, does not tell the token of a
lock, and is read as the same envelope without a token (`wire_form_comes_back`).  Three
codecs stand inside one another: base64 for the payload and RFC 3339 for the time, both in
quotes, and both in an object whose members are read one by one.
-/

namespace PeekLock.Envelope

open Json (Written Gathers EndsMember)

/-! ## The members -/

theorem encode_asciiText (payload : Octets) :
    Utf8.encode (asciiText (Base64.encode payload)) = Base64.encode payload := by
  rw [Utf8.encode, asciiText, String.toList_ofList]
  exact Utf8.encodeChars_map_ofNat fun b => Base64.lt_of_mem_encode

theorem readBase64_quoted (payload : Octets) (rest : Octets) :
    readBase64 (Utf8.encodeChars (Json.quoteChars (asciiText (Base64.encode payload))) ++ rest) =
      .ok (payload, rest) := by
  simp only [readBase64, Json.readText_quoteChars, bind, Except.bind, encode_asciiText,
    Base64.decode_encode]
  rfl

theorem readTimestamp_quoted (t : Timestamp) (rest : Octets) :
    readTimestamp (Utf8.encodeChars (Json.quoteChars t.toWire) ++ rest) = .ok (t, rest) := by
  rw [Json.encodeChars_quoteChars]
  -- The opening quote is no blank, and what stands behind it is read as a string.
  have skipped (bs : Octets) : Json.skipBlanks (0x22 :: bs) = 0x22 :: bs := rfl
  simp only [readTimestamp, skipped, Json.stringBody_quoted, bind, Except.bind,
    Timestamp.parse_toWire]
  rfl

/-- The time as it is written: in quotes, or null where there is none. -/
def timeValue : Option Timestamp → Json
  | some t => .text t.toWire
  | none => .null

theorem readOption_time (t? : Option Timestamp) (rest : Octets) :
    Json.readOption readTimestamp (Utf8.encodeChars (timeValue t?).chars ++ rest) =
      .ok (t?, rest) := by
  cases t? with
  | none => rfl
  | some t =>
    have read := readTimestamp_quoted t rest
    have chars : (timeValue (some t)).chars = Json.quoteChars t.toWire := rfl
    rw [chars]
    rw [Json.encodeChars_quoteChars] at read ⊢
    have opened (bs : Octets) : Json.readOption readTimestamp (0x22 :: bs) = (do
        let (v, rest) ← readTimestamp (0x22 :: bs)
        return (some v, rest)) := rfl
    rw [opened, read]
    rfl

/-- The members of an envelope, as they are written. -/
def members (e : Envelope) : List Written :=
  [("correlation_id", Json.quoteChars e.correlationId),
    ("message_id", Json.quoteChars e.messageId.text),
    ("message_type", Json.quoteChars e.messageType),
    ("sent_time", (timeValue e.sentTime).chars),
    ("message", Json.quoteChars (asciiText (Base64.encode e.payload)))]

/-- The members of an envelope take its parts in, one by one. -/
theorem gathers_members (e : Envelope) (depth : Nat) :
    Gathers (record.member depth) record.empty e.members
      ⟨some e.correlationId, some e.messageId.text, some e.messageType, some e.sentTime,
        some e.payload⟩ := by
  have read {α : Type} {reader : Json.Reader α} {value : List Char} {v : α} {rest : Octets}
      (reads : reader (Utf8.encodeChars value ++ rest) = .ok (v, rest)) (enter : α → Parts) :
      (do
        let read ← reader (Utf8.encodeChars value ++ rest)
        return (enter read.1, read.2)) =
          (.ok (enter v, rest) : Except Json.Failure (Parts × Octets)) := by
    rw [reads]
    rfl
  refine .cons (fun rest _ => Json.Record.member_of_field rfl rfl
    (read (Json.readText_quoteChars e.correlationId rest) fun v =>
      ⟨some v, none, none, none, none⟩)) ?_
  refine .cons (fun rest _ => Json.Record.member_of_field rfl rfl
    (read (Json.readText_quoteChars e.messageId.text rest) fun v =>
      ⟨some e.correlationId, some v, none, none, none⟩)) ?_
  refine .cons (fun rest _ => Json.Record.member_of_field rfl rfl
    (read (Json.readText_quoteChars e.messageType rest) fun v =>
      ⟨some e.correlationId, some e.messageId.text, some v, none, none⟩)) ?_
  refine .cons (fun rest _ => Json.Record.member_of_field rfl rfl
    (read (readOption_time e.sentTime rest) fun v =>
      ⟨some e.correlationId, some e.messageId.text, some e.messageType, some v, none⟩)) ?_
  refine .cons (fun rest _ => Json.Record.member_of_field rfl rfl
    (read (readBase64_quoted e.payload rest) fun v =>
      ⟨some e.correlationId, some e.messageId.text, some e.messageType, some e.sentTime,
        some v⟩)) ?_
  exact .nil _

theorem chars_toValue (e : Envelope) :
    e.toValue.chars =
      '\x7b' :: Json.joinChars [','] (e.members.map Written.chars) ++ ['\x7d'] := by
  obtain ⟨c, id, t, time, payload, reference⟩ := e
  cases time <;> rfl

theorem encode_toJson (e : Envelope) : Utf8.encode e.toJson = e.toValue.octets :=
  Json.encode_render e.toValue

theorem ofJson_toJson (e : Envelope) : ofJson e.toJson = .ok e.withoutReference := by
  have parsed : record.parse e.toJson = .ok e.withoutReference := by
    rw [Json.Record.parse, encode_toJson, Json.octets, chars_toValue]
    exact Json.Record.run_written (gathers_members e 126) rfl
  rw [ofJson, parsed]

/-- Every envelope has a wire form, in which the token of a lock does not show, and which is read
    as the same envelope without the token. -/
theorem wire_form_comes_back (e : Envelope) :
    (Document.ofValue e.toValue).encode = .ok (Utf8.encode e.toJson) ∧
      (∀ reference, { e with reference := reference }.toJson = e.toJson) ∧
      ofJson e.toJson = .ok e.withoutReference :=
  ⟨encode_toJson e ▸ Document.encode_ofValue e.toValue, fun _ => rfl, ofJson_toJson e⟩

end PeekLock.Envelope
