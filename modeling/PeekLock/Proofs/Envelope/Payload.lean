import PeekLock.Envelope
import PeekLock.Proofs.Json.Document
import PeekLock.Proofs.Text.Replacement

/-! # Payloads as JSON and as text

There are two ways to put a value into an envelope: making an envelope with the text of the
value, which is written directly, and replacing the payload, where the value is taken apart
first and written then.  Both come to the same octets, from which the value is read again,
but for the null value, which replaces the payload by nothing (`payload_as_value`).  What
refuses to be written makes no envelope, and replaces nothing.

A payload is read as text strictly, or with replacements for what is no text.  Both give the
text whose octets the payload is, if there is one (`text_views_agree`).
-/

namespace PeekLock.Envelope

variable {e : Envelope} {v : Json} {d : Document}

theorem ofDocument_ofValue (id : MessageId) (c t : String) (v : Json) :
    ofDocument id c t (.ofValue v) = .ok (new id c t v.octets) := by
  rw [ofDocument, Document.encode_ofValue]

theorem ofDocument_fails_iff (id : MessageId) (c t : String) (d : Document) :
    (∃ error, ofDocument id c t d = .error error) ↔ d.Refuses := by
  rw [← (Document.fails_iff d).1]
  simp only [ofDocument, Document.encode]
  cases written : d.chars with
  | error failure => exact ⟨fun _ => ⟨failure, rfl⟩, fun _ => ⟨_, rfl⟩⟩
  | ok cs =>
    constructor
    · rintro ⟨error, fails⟩
      cases fails
    · intro fails
      exact absurd fails (Document.not_fails_ok cs)

/-- A payload that is the text of a value is read as the value. -/
theorem value?_of_payload (fits : v.Fits Json.maxDepth) (carries : e.payload = v.octets) :
    e.value? = some v := by
  have notEmpty : List.isEmpty v.octets = false :=
    List.isEmpty_eq_false_iff.2 (Json.octets_ne_nil fits)
  simp only [value?, json?, carries, notEmpty, Json.run_readValue fits]
  rfl

/-- Replacing the payload leaves all else. -/
theorem setDocument_eq (e : Envelope) (d : Document) :
    ∃ payload, e.setDocument d = { e with payload } := by
  simp only [setDocument]
  split
  · exact ⟨e.payload, rfl⟩
  · exact ⟨[], rfl⟩
  · exact ⟨_, rfl⟩

theorem setDocument_of_refuses (refuses : d.Refuses) : e.setDocument d = e := by
  obtain ⟨failure, fails⟩ := (Document.fails_iff d).2.2 refuses
  rw [setDocument, fails]

theorem setDocument_ofValue (fits : v.Fits Json.maxDepth) (notNull : v ≠ .null) :
    e.setDocument (.ofValue v) = { e with payload := v.octets } := by
  rw [setDocument, Document.value_ofValue fits]
  -- The null value is told from all others once the document has been made a value.
  cases v with
  | null => exact absurd rfl notNull
  | _ => rfl

/-- A value that fits is read from an envelope that is made for it.  Replacing the payload of any
    envelope by the value gives the octets of the one that was made, but the null value leaves no
    payload, from which nothing is read.  Nothing else of the envelope changes, whatever the
    payload is replaced by.  And a document makes no envelope just if it refuses to be written
    somewhere, and then leaves the envelope as it was. -/
theorem payload_as_value (e : Envelope) (id : MessageId) (c t : String) :
    (∀ v : Json, v.Fits Json.maxDepth →
      ∃ made, ofDocument id c t (.ofValue v) = .ok made ∧ made.value? = some v ∧
        (v ≠ .null → (e.setDocument (.ofValue v)).payload = made.payload ∧
          (e.setDocument (.ofValue v)).value? = some v) ∧
        (v = .null → (e.setDocument (.ofValue v)).payload = [] ∧
          (e.setDocument (.ofValue v)).value? = none)) ∧
    ∀ d : Document,
      (∃ payload, e.setDocument d = { e with payload }) ∧
      ((∃ error, ofDocument id c t d = .error error) ↔ d.Refuses) ∧
      (d.Refuses → e.setDocument d = e) := by
  constructor
  · intro v fits
    refine ⟨_, ofDocument_ofValue id c t v, value?_of_payload fits rfl, ?_, ?_⟩
    · intro notNull
      have carries := congrArg payload (setDocument_ofValue (e := e) fits notNull)
      exact ⟨carries, value?_of_payload fits carries⟩
    · rintro rfl
      exact ⟨rfl, rfl⟩
  · intro d
    exact ⟨e.setDocument_eq d, ofDocument_fails_iff id c t d, setDocument_of_refuses⟩

/-- A value with an escape and a negative number inside comes back, and so does nothing where a
    key deep inside is no text. -/
theorem payload_as_value_nested :
    let v : Json := .object [("a", .array [.integer (-1), .text "\n\""]), ("b", .object [])]
    let d : Document := .list [.record [("x", .map [(none, .null)])]]
    v.Fits Json.maxDepth ∧
      ((Envelope.empty.setDocument (.ofValue v)).value? = some v) ∧
      d.Refuses ∧ ∃ error, ofDocument .empty "" "" d = .error error := by
  intro v d
  have ascend : KeysAscend [("a", Json.array [.integer (-1), .text "\n\""]), ("b", .object [])] := by
    simp only [KeysAscend]
    decide
  have fits : v.Fits Json.maxDepth := by
    refine .object ascend fun m member => ?_
    rcases List.mem_pair.1 member with rfl | rfl
    · refine .array fun item member => ?_
      rcases List.mem_pair.1 member with rfl | rfl
      · exact .integer (by decide) (by decide)
      · exact .text _
    · exact .object .nil fun m member => absurd member List.not_mem_nil
  have refuses : d.Refuses :=
    .item (List.mem_singleton_self _) (.field (List.mem_singleton_self _)
      (.key (List.mem_singleton_self _) rfl))
  have notNull : v ≠ .null := by simp [v]
  obtain ⟨values, documents⟩ := payload_as_value .empty .empty "" ""
  obtain ⟨made, _, _, agree, _⟩ := values v fits
  exact ⟨fits, (agree notNull).2, refuses, (documents d).2.1.2 refuses⟩

/-! ## As text -/

theorem text?_eq_ok_iff {s : String} : e.text? = .ok s ↔ Utf8.encode s = e.payload := by
  rw [← Utf8.decode?_eq_some_iff, text?]
  cases Utf8.decode? e.payload <;> simp

theorem text?_eq_error_iff {error : SerializationError} :
    e.text? = .error error ↔ Utf8.decode? e.payload = none ∧ error = .invalidUtf8 := by
  rw [text?]
  cases Utf8.decode? e.payload <;> simp [eq_comm]

theorem text_of_encode {s : String} (octets : Utf8.encode s = e.payload) : e.text = s := by
  rw [text, ← octets, Utf8.decodeLossy_encode]

/-- Strict reading of a payload succeeds just if the text that reading with replacements gives has
    the payload for its octets, and then gives the same text.  It fails, for one reason only,
    where there is a replacement and the text has other octets.  A text that is put into an
    envelope is read from it both ways, and putting in what was read with replacements changes
    nothing of what is read so. -/
theorem text_views_agree (e : Envelope) :
    ((∃ s, e.text? = .ok s) ↔ Utf8.encode e.text = e.payload) ∧
      (∀ s, e.text? = .ok s → e.text = s) ∧
      (∀ error, e.text? = .error error → error = .invalidUtf8 ∧
        Utf8.replacement ∈ e.text.toList ∧ Utf8.encode e.text ≠ e.payload) ∧
      (∀ s, (e.setText s).text? = .ok s ∧ (e.setText s).text = s) ∧
      (e.setText e.text).text = e.text := by
  have written (s : String) : (e.setText s).text = s := text_of_encode rfl
  refine ⟨⟨?_, fun octets => ⟨e.text, text?_eq_ok_iff.2 octets⟩⟩, ?_, ?_, ?_, written e.text⟩
  · rintro ⟨s, strict⟩
    have octets := text?_eq_ok_iff.1 strict
    rwa [text_of_encode octets]
  · exact fun s strict => text_of_encode (text?_eq_ok_iff.1 strict)
  · intro error refused
    obtain ⟨strict, rfl⟩ := text?_eq_error_iff.1 refused
    refine ⟨rfl, Utf8.replacement_mem_decodeLossy strict, fun octets => ?_⟩
    exact absurd ((text?_eq_ok_iff.2 octets).symm.trans refused) nofun
  · exact fun s => ⟨text?_eq_ok_iff.2 rfl, written s⟩

end PeekLock.Envelope
