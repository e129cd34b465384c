import PeekLock.Proofs.Envelope.Wire
import PeekLock.Proofs.Json.Deferral
import PeekLock.Proofs.Text.Canonical

/-! # The text of a payload

An envelope as it travels, with the text of its message still unread, is a sealed one.
Reading an envelope is reading a sealed one and opening it (`ofJson_eq_opened`), and a sealed one
opens only if its text is the one that is written for the payload.  So the text of an
accepted envelope is determined by the payload, and every other text is refused
(`message_text_is_canonical`).
-/

namespace PeekLock

/-- An envelope with the text of its message, which may or may not stand for a payload. -/
structure Sealed where
  correlationId : String
  messageId : MessageId
  messageType : String
  sentTime : Option Timestamp
  message : String

namespace Sealed

open Json (FieldsDefer Reader map_eq_ok_iff map_eq_error_iff)

/-! ## Reading and writing -/

structure Parts where
  correlationId : Option String := none
  messageId : Option String := none
  messageType : Option String := none
  sentTime : Option (Option Timestamp) := none
  message : Option String := none

def Parts.finish (p : Parts) : Except String Sealed :=
  match p.correlationId, p.messageId, p.messageType, p.message with
  | some c, some id, some t, some message => .ok ⟨c, ⟨id⟩, t, p.sentTime.getD none, message⟩
  | none, _, _, _ => .error "correlation_id"
  | _, none, _, _ => .error "message_id"
  | _, _, none, _ => .error "message_type"
  | _, _, _, none => .error "message"

def record : Json.Record Parts Sealed where
  name := "MessageEnvelope"
  lenient := false
  empty := {}
  finish := Parts.finish
  fields := [
    .entered "correlation_id" (·.correlationId.isSome) Json.readText
      fun p v => { p with correlationId := some v },
    .entered "message_id" (·.messageId.isSome) Json.readText
      fun p v => { p with messageId := some v },
    .entered "message_type" (·.messageType.isSome) Json.readText
      fun p v => { p with messageType := some v },
    .entered "sent_time" (·.sentTime.isSome) (Json.readOption Envelope.readTimestamp)
      fun p v => { p with sentTime := some v },
    .entered "message" (·.message.isSome) Json.readText
      fun p v => { p with message := some v }]

def ofJson (s : String) : Except Json.Failure Sealed :=
  record.parse s

def toValue (l : Sealed) : Json :=
  .object [
    ("correlation_id", .text l.correlationId),
    ("message_id", .text l.messageId.text),
    ("message_type", .text l.messageType),
    ("sent_time", Envelope.timeValue l.sentTime),
    ("message", .text l.message)]

def toJson (l : Sealed) : String :=
  l.toValue.render

/-! ## Opening -/

/-- The payload for which a text stands. -/
def payloadOf (message : String) : Except Json.Failure Octets :=
  match Base64.decode (Utf8.encode message) with
  | .ok octets => .ok octets
  | .error fault => .error (.data fault.message)

def opened (l : Sealed) : Except Json.Failure Envelope :=
  (payloadOf l.message).map fun payload =>
    ⟨l.correlationId, l.messageId, l.messageType, l.sentTime, payload, none⟩

/-- The payload for the text that has been read, if one has. -/
def payloadOf? : Option String → Except Json.Failure (Option Octets)
  | none => .ok none
  | some message => (payloadOf message).map some

/-- The parts of an envelope with a payload, or still without one. -/
def Parts.holding (p : Parts) (payload : Option Octets) : Envelope.Parts :=
  ⟨p.correlationId, p.messageId, p.messageType, p.sentTime, payload⟩

def Parts.opened (p : Parts) : Except Json.Failure Envelope.Parts :=
  (payloadOf? p.message).map p.holding

theorem isSome_of_payloadOf? {message : Option String} {payload : Option Octets}
    (read : payloadOf? message = .ok payload) : message.isSome = payload.isSome := by
  cases message with
  | none =>
    obtain rfl := Except.ok.inj read
    rfl
  | some message =>
    obtain ⟨octets, _, rfl⟩ := map_eq_ok_iff.1 read
    rfl

theorem Parts.opened_eq_ok_iff {p : Parts} {q : Envelope.Parts} :
    p.opened = .ok q ↔ ∃ payload, payloadOf? p.message = .ok payload ∧ p.holding payload = q :=
  map_eq_ok_iff

theorem Parts.opened_eq_error_iff {p : Parts} {f : Json.Failure} :
    p.opened = .error f ↔ payloadOf? p.message = .error f :=
  map_eq_error_iff

section Header

variable {μ : Type} {name : String} {given : Parts → Bool} {given' : Envelope.Parts → Bool}
  {reader : Reader μ} {enter : Parts → μ → Parts} {enter' : Envelope.Parts → μ → Envelope.Parts}

/-- Fields in front of the message are read alike. -/
theorem defers_header {fields : List (Json.Field Parts)} {fields' : List (Json.Field Envelope.Parts)}
    (keeps : ∀ p v, (enter p v).message = p.message)
    (agree : ∀ p payload, given p = given' (p.holding payload))
    (enters : ∀ p v payload, (enter p v).holding payload = enter' (p.holding payload) v)
    (others : FieldsDefer Parts.opened fields fields') :
    FieldsDefer Parts.opened (.entered name given reader enter :: fields)
      (.entered name given' reader enter' :: fields') := by
  refine .cons (.entered (fun bs => .same (reader bs)) ?agree ?enters ?refuses ?stays)
    (.entered ?certain) others
  case agree =>
    intro s t viewed
    obtain ⟨payload, _, rfl⟩ := Parts.opened_eq_ok_iff.1 viewed
    exact agree s payload
  case enters =>
    intro s t v w viewed value
    obtain ⟨payload, read, rfl⟩ := Parts.opened_eq_ok_iff.1 viewed
    obtain rfl := Except.ok.inj value
    exact Parts.opened_eq_ok_iff.2 ⟨payload, keeps s v ▸ read, enters s v payload⟩
  case refuses => simp
  case stays =>
    intro s v f refused _
    rw [Parts.opened_eq_error_iff, keeps]
    exact Parts.opened_eq_error_iff.1 refused
  case certain =>
    intro s t v viewed
    obtain ⟨payload, read, _⟩ := Parts.opened_eq_ok_iff.1 viewed
    exact ⟨_, Parts.opened_eq_ok_iff.2 ⟨payload, keeps s v ▸ read, rfl⟩⟩

end Header

theorem defers_readBase64 (bs : Octets) :
    Json.Defers (Json.withRest payloadOf) (Json.readText bs) (Envelope.readBase64 bs) := by
  rw [Envelope.readBase64]
  cases Json.readText bs with
  | error f => exact .failed f f
  | ok read =>
    simp only [bind, Except.bind]
    cases decoded : Base64.decode (Utf8.encode read.1) with
    | ok octets =>
      have value : payloadOf read.1 = .ok octets := by rw [payloadOf, decoded]
      exact .of_ok (Json.withRest_eq_ok.2 ⟨value, rfl⟩)
    | error fault =>
      have value : payloadOf read.1 = .error (.data fault.message) := by rw [payloadOf, decoded]
      exact .of_refused (Json.withRest_eq_error.2 value)

/-- The text of a message is taken as it is, and its payload is looked for later. -/
theorem defers_message :
    (Json.Field.entered "message" (·.message.isSome) Json.readText
      fun p v => { p with message := some v }).Defers Parts.opened
    (Json.Field.entered "message" (·.payload.isSome) Envelope.readBase64
      fun p v => { p with payload := some v }) := by
  refine .entered defers_readBase64 ?agree ?enters ?refuses ?stays
  case agree =>
    intro s t viewed
    obtain ⟨payload, read, rfl⟩ := Parts.opened_eq_ok_iff.1 viewed
    exact isSome_of_payloadOf? read
  case enters =>
    intro s t v w viewed value
    obtain ⟨payload, _, rfl⟩ := Parts.opened_eq_ok_iff.1 viewed
    exact Parts.opened_eq_ok_iff.2 ⟨some w, map_eq_ok_iff.2 ⟨w, value, rfl⟩, rfl⟩
  case refuses =>
    intro s t v f _ refused
    exact Parts.opened_eq_error_iff.2 (map_eq_error_iff.2 refused)
  case stays =>
    -- Without a text there is nothing to refuse.
    intro s v f refused fresh
    obtain ⟨c, id, type, time, message⟩ := s
    obtain rfl : message = none := Option.not_isSome_iff_eq_none.1 (Bool.eq_false_iff.1 fresh)
    exact nomatch Parts.opened_eq_error_iff.1 refused

/-- The fields of an envelope, each with the part that it enters. -/
theorem fields_record : Envelope.record.fields = [
    .entered "correlation_id" (·.correlationId.isSome) Json.readText
      fun p v => { p with correlationId := some v },
    .entered "message_id" (·.messageId.isSome) Json.readText
      fun p v => { p with messageId := some v },
    .entered "message_type" (·.messageType.isSome) Json.readText
      fun p v => { p with messageType := some v },
    .entered "sent_time" (·.sentTime.isSome) (Json.readOption Envelope.readTimestamp)
      fun p v => { p with sentTime := some v },
    .entered "message" (·.payload.isSome) Envelope.readBase64
      fun p v => { p with payload := some v }] :=
  rfl

theorem message_of_finish {p : Parts} {l : Sealed} (done : p.finish = .ok l) :
    p.message = some l.message := by
  simp only [Parts.finish] at done
  split at done
  · next message =>
    obtain rfl := Except.ok.inj done
    exact message
  all_goals exact nomatch done

/-- What lacks a part is no envelope, sealed or not. -/
theorem defers_finished {p : Parts} {payload : Option Octets}
    (read : payloadOf? p.message = .ok payload) :
    Json.Defers opened (record.finished p) (Envelope.record.finished (p.holding payload)) := by
  obtain ⟨c, id, type, time, message⟩ := p
  -- The parts are asked for in the order of the fields.
  cases c with
  | none => exact .failed _ _
  | some c =>
    cases id with
    | none => exact .failed _ _
    | some id =>
      cases type with
      | none => exact .failed _ _
      | some type =>
        cases message with
        | none =>
          obtain rfl := Except.ok.inj read
          exact .failed _ _
        | some message =>
          obtain ⟨octets, value, rfl⟩ := map_eq_ok_iff.1 read
          exact .of_ok (map_eq_ok_iff.2 ⟨octets, value, rfl⟩)

theorem defers_record : record.Defers Parts.opened opened Envelope.record where
  lenient := rfl
  empty := rfl
  fields := by
    rw [fields_record]
    -- The message comes last, and the fields in front of it do not look at it.
    refine defers_header ?_ ?_ ?_ (defers_header ?_ ?_ ?_ (defers_header ?_ ?_ ?_
      (defers_header ?_ ?_ ?_ (.last defers_message))))
    all_goals intros; rfl
  finished := by
    intro p t viewed
    obtain ⟨payload, read, rfl⟩ := Parts.opened_eq_ok_iff.1 viewed
    exact defers_finished read
  stays := by
    intro p f l refused finished
    have read := Parts.opened_eq_error_iff.1 refused
    rw [message_of_finish (Json.Record.finish_of_finished finished)] at read
    exact map_eq_error_iff.2 (map_eq_error_iff.1 read)

/-! ## Texts of payloads -/

theorem payloadOf_eq_ok_iff {message : String} {payload : Octets} :
    payloadOf message = .ok payload ↔ message = Envelope.asciiText (Base64.encode payload) := by
  have decoded : payloadOf message = .ok payload ↔
      Base64.decode (Utf8.encode message) = .ok payload := by
    rw [payloadOf]
    cases Base64.decode (Utf8.encode message) with
    | ok octets => simp
    | error fault => simp
  rw [decoded, Base64.decode_eq_ok_iff]
  constructor
  · intro same
    rw [← Envelope.encode_asciiText payload] at same
    have texts := congrArg Utf8.decode? same
    rw [Utf8.decode?_encode, Utf8.decode?_encode] at texts
    exact Option.some.inj texts
  · rintro rfl
    exact Envelope.encode_asciiText payload

theorem not_flawed_iff {message : String} :
    ¬ Base64.Flawed message.toList ↔ ∃ payload, payloadOf message = .ok payload := by
  rw [Base64.not_flawed_iff]
  refine exists_congr fun payload => ?_
  rw [payloadOf_eq_ok_iff, Envelope.asciiText, ← String.toList_inj, String.toList_ofList]
  rfl

theorem payloadOf_of_flawed {message : String} (flawed : Base64.Flawed message.toList) :
    ∃ fault, Base64.decode (Utf8.encode message) = .error fault ∧
      payloadOf message = .error (.data fault.message) := by
  cases decoded : Base64.decode (Utf8.encode message) with
  | error fault => exact ⟨fault, rfl, by rw [payloadOf, decoded]⟩
  | ok payload =>
    have read : payloadOf message = .ok payload := by rw [payloadOf, decoded]
    exact absurd flawed (not_flawed_iff.2 ⟨payload, read⟩)

/-! ## Every text may stand there -/

/-- The members of a sealed envelope, as they are written. -/
def members (l : Sealed) : List Json.Written :=
  [("correlation_id", Json.quoteChars l.correlationId),
    ("message_id", Json.quoteChars l.messageId.text),
    ("message_type", Json.quoteChars l.messageType),
    ("sent_time", (Envelope.timeValue l.sentTime).chars),
    ("message", Json.quoteChars l.message)]

theorem member_entered {μ : Type} {depth : Nat} {p : Parts} {name : String} {value : List Char}
    {v : μ} {rest : Octets} {given : Parts → Bool} {reader : Reader μ} {enter : Parts → μ → Parts}
    (found : record.fields.find? (·.name = name) = some (.entered name given reader enter))
    (fresh : given p = false)
    (reads : reader (Utf8.encodeChars value ++ rest) = .ok (v, rest)) :
    record.member depth p name (0x3A :: (Utf8.encodeChars value ++ rest)) =
      .ok (enter p v, rest) := by
  refine Json.Record.member_of_field found fresh ?_
  simp only [Json.Field.entered, reads, bind, Except.bind]
  rfl

theorem gathers_members (l : Sealed) (depth : Nat) :
    Json.Gathers (record.member depth) record.empty l.members
      ⟨some l.correlationId, some l.messageId.text, some l.messageType, some l.sentTime,
        some l.message⟩ := by
  refine .cons (fun rest _ => member_entered rfl rfl (Json.readText_quoteChars _ rest)) ?_
  refine .cons (fun rest _ => member_entered rfl rfl (Json.readText_quoteChars _ rest)) ?_
  refine .cons (fun rest _ => member_entered rfl rfl (Json.readText_quoteChars _ rest)) ?_
  refine .cons (fun rest _ => member_entered rfl rfl (Envelope.readOption_time _ rest)) ?_
  refine .cons (fun rest _ => member_entered rfl rfl (Json.readText_quoteChars _ rest)) ?_
  exact .nil _

theorem chars_toValue (l : Sealed) :
    l.toValue.chars =
      '\x7b' :: Json.joinChars [','] (l.members.map Json.Written.chars) ++ ['\x7d'] :=
  rfl

theorem ofJson_toJson (l : Sealed) : ofJson l.toJson = .ok l := by
  rw [ofJson, Json.Record.parse, toJson, Json.encode_render, Json.octets, chars_toValue]
  exact Json.Record.run_written (gathers_members l 126) rfl

end Sealed

namespace Envelope

/-- The envelope as it travels. -/
def sealed (e : Envelope) : Sealed :=
  ⟨e.correlationId, e.messageId, e.messageType, e.sentTime, asciiText (Base64.encode e.payload)⟩

theorem opened_eq_ok_iff {l : Sealed} {e : Envelope} :
    l.opened = .ok e ↔ e.reference = none ∧ l = e.sealed := by
  obtain ⟨c, id, type, time, message⟩ := l
  obtain ⟨c', id', type', time', payload, reference⟩ := e
  rw [Sealed.opened, Json.map_eq_ok_iff]
  simp only [Sealed.payloadOf_eq_ok_iff, sealed, Envelope.mk.injEq, Sealed.mk.injEq]
  constructor
  · rintro ⟨octets, text, rfl, rfl, rfl, rfl, rfl, rfl⟩
    exact ⟨rfl, rfl, rfl, rfl, rfl, text⟩
  · rintro ⟨rfl, rfl, rfl, rfl, rfl, text⟩
    exact ⟨payload, text, rfl, rfl, rfl, rfl, rfl, rfl⟩

/-- To read an envelope is to read a sealed one and to open it. -/
theorem ofJson_eq_opened {json : String} {l : Sealed} (read : Sealed.ofJson json = .ok l) :
    ofJson json = l.opened.mapError .json := by
  have side := Sealed.defers_record.parse json
  rw [Sealed.ofJson] at read
  rw [read] at side
  rw [ofJson, side.eq_view]
  cases l.opened with
  | ok e => rfl
  | error f => rfl

theorem ofJson_eq_ok_iff {json : String} {e : Envelope} :
    ofJson json = .ok e ↔ e.reference = none ∧ Sealed.ofJson json = .ok e.sealed := by
  constructor
  · intro read
    have side := Sealed.defers_record.parse json
    rw [ofJson] at read
    split at read
    · next parsed =>
      obtain rfl := Except.ok.inj read
      rw [parsed] at side
      -- What has been read was read sealed, and then opened.
      obtain ⟨l, travels, opens⟩ := side.exists_view
      obtain ⟨unlocked, rfl⟩ := opened_eq_ok_iff.1 opens
      exact ⟨unlocked, travels⟩
    · simp at read
  · rintro ⟨unlocked, read⟩
    rw [ofJson_eq_opened read, opened_eq_ok_iff.2 ⟨unlocked, rfl⟩]
    rfl

/-- A message is read if and only if it is the text that is written for a payload, so that one
    payload has one text.  Every other text has a flaw, and the envelope is refused for it. -/
theorem message_text_is_canonical :
    (∀ json e, ofJson json = .ok e →
      ∃ l, Sealed.ofJson json = .ok l ∧ asciiText (Base64.encode e.payload) = l.message) ∧
    (∀ json json' e e' l l', ofJson json = .ok e → ofJson json' = .ok e' →
      Sealed.ofJson json = .ok l → Sealed.ofJson json' = .ok l' → e.payload = e'.payload →
      l.message = l'.message) ∧
    (∀ json l, Sealed.ofJson json = .ok l →
      (Base64.Flawed l.message.toList → ∃ fault,
        Base64.decode (Utf8.encode l.message) = .error fault ∧
        ofJson json = .error (.json (.data fault.message))) ∧
      (¬ Base64.Flawed l.message.toList → ∃ e, ofJson json = .ok e ∧ e.sealed = l)) ∧
    ∀ l : Sealed, Sealed.ofJson l.toJson = .ok l := by
  have written {json : String} {e : Envelope} {l : Sealed} (accepted : ofJson json = .ok e)
      (read : Sealed.ofJson json = .ok l) : e.sealed = l := by
    have both := (ofJson_eq_ok_iff.1 accepted).2.symm.trans read
    exact Except.ok.inj both
  refine ⟨?own, ?unique, ?decided, Sealed.ofJson_toJson⟩
  case own =>
    intro json e accepted
    exact ⟨e.sealed, (ofJson_eq_ok_iff.1 accepted).2, rfl⟩
  case unique =>
    intro json json' e e' l l' accepted accepted' read read' payload
    obtain rfl := written accepted read
    obtain rfl := written accepted' read'
    rw [sealed, sealed, payload]
  case decided =>
    intro json l read
    refine ⟨fun flawed => ?_, fun sound => ?_⟩
    · obtain ⟨fault, decoded, value⟩ := Sealed.payloadOf_of_flawed flawed
      refine ⟨fault, decoded, ?_⟩
      rw [ofJson_eq_opened read, Sealed.opened, value]
      rfl
    · obtain ⟨payload, value⟩ := Sealed.not_flawed_iff.1 sound
      have opens : l.opened =
          .ok ⟨l.correlationId, l.messageId, l.messageType, l.sentTime, payload, none⟩ :=
        Json.map_eq_ok_iff.2 ⟨payload, value, rfl⟩
      refine ⟨_, ?_, (opened_eq_ok_iff.1 opens).2.symm⟩
      rw [ofJson_eq_opened read, opens]
      rfl

/-- Four bits are over in the text of a single octet.  With zeros in their place the text is read,
    the same in two envelopes, and with another bit it is refused. -/
theorem message_text_is_canonical_of_one_octet :
    let letter (id : String) : Envelope := .new ⟨id⟩ "c" "t" [0x41]
    let spoilt : Sealed := ⟨"c", ⟨"m"⟩, "t", none, "QR=="⟩
    ((∃ l, Sealed.ofJson (letter "m").toJson = .ok l ∧ "QQ==" = l.message) ∧
      ∃ l l', Sealed.ofJson (letter "m").toJson = .ok l ∧
        Sealed.ofJson (letter "n").toJson = .ok l' ∧ l.message = l'.message) ∧
    (Base64.Flawed spoilt.message.toList ∧
      ∃ fault : Base64.DecodeError,
        ofJson spoilt.toJson = .error (.json (.data fault.message))) := by
  intro letter spoilt
  have accepted (id : String) : ofJson (letter id).toJson = .ok (letter id) := ofJson_toJson _
  have read (id : String) := (ofJson_eq_ok_iff.1 (accepted id)).2
  have text : spoilt.message.toList = ['Q', 'R', '=', '='] := by simp [spoilt]
  have flawed : Base64.Flawed spoilt.message.toList :=
    .fourBits 'R' ⟨['Q'], text.symm⟩ (by decide)
  obtain ⟨own, unique, decided, every⟩ := message_text_is_canonical
  refine ⟨⟨own _ _ (accepted "m"), ?_⟩, flawed, ?_⟩
  · exact ⟨_, _, read "m", read "n",
      unique _ _ _ _ _ _ (accepted "m") (accepted "n") (read "m") (read "n") rfl⟩
  · obtain ⟨fault, _, refused⟩ := (decided _ _ (every spoilt)).1 flawed
    exact ⟨fault, refused⟩

end Envelope

end PeekLock
