import PeekLock.Demo.Run
import PeekLock.Proofs.Json.Values

/-! # What a demo message carries comes back

The receiver of a demo reads from every message just what was sent with it
(`json?_payload`), and so dead-letters the messages whose numbers it is to, and no others
(`isDeadLetter_payload`).  Numbers of more than 64 bits would not be read; there are no
such many messages.
-/

namespace PeekLock.Demo

open Json (Written Gathers EndsMember)

variable {p : Payload}

/-- The members of a payload, as they are written. -/
def Payload.members (p : Payload) : List Written :=
  [("sequence", digitChars p.sequence), ("text", Json.quoteChars p.text)]

/-- The octets of a payload. -/
def Payload.octets (p : Payload) : Octets :=
  Utf8.encodeChars
    ('\x7b' :: Json.joinChars [','] (p.members.map Written.chars) ++ ['\x7d'])

theorem Payload.encode_document (p : Payload) : p.document.encode = .ok p.octets := rfl

/-- The members of a payload take its parts in, one by one. -/
theorem gathers_members (small : p.sequence ≤ maxUnsigned64) (depth : Nat) :
    Gathers (record.member depth) record.empty p.members ⟨some p.sequence, some p.text⟩ := by
  have between : Gathers (record.member depth) ⟨some p.sequence, none⟩
      [("text", Json.quoteChars p.text)] ⟨some p.sequence, some p.text⟩ := by
    refine .cons (fun rest _ => Json.Record.member_of_field rfl rfl ?_) (.nil _)
    simp only [Json.readText_quoteChars, bind, Except.bind]
    rfl
  refine .cons (fun rest ends => Json.Record.member_of_field rfl rfl ?_) between
  have read := Json.readUnsigned_digits small (Json.endsNumber_of_endsMember ends)
  simp only [read, bind, Except.bind]
  rfl

/-- The receiver reads what was sent. -/
theorem json?_payload (small : p.sequence ≤ maxUnsigned64) {e : Envelope}
    (carries : e.payload = p.octets) : e.json? (record.read Json.maxDepth) = some p := by
  have run : Json.Reader.run (record.read Json.maxDepth) p.octets = .ok p :=
    Json.Record.run_written (gathers_members small 126) rfl
  have written : p.octets.isEmpty = false := rfl
  simp only [Envelope.json?, carries, written, run]
  rfl

/-! ## Which messages are dead-lettered -/

/-- Whether the message of some number is to be dead-lettered. -/
def failsAt (failEvery : Option Nat) (i : Nat) : Bool :=
  failEvery.any fun k => i % k = 0

theorem isDeadLetter_payload (small : p.sequence ≤ maxUnsigned64) {e : Envelope}
    (carries : e.payload = p.octets) (failEvery : Option Nat) :
    isDeadLetter failEvery (e.json? (record.read Json.maxDepth)) =
      failsAt failEvery p.sequence := by
  rw [json?_payload small carries]
  cases failEvery <;> rfl

/-- The number of messages that are dead-lettered among so many. -/
def deadLettered (failEvery : Option Nat) (i : Nat) : Nat :=
  match failEvery with
  | some k => i / k
  | none => 0

/-- One message more is dead-lettered where its number is a multiple of the one given. -/
theorem deadLettered_succ (failEvery : Option Nat) (i : Nat) :
    deadLettered failEvery (i + 1) =
      deadLettered failEvery i + if failsAt failEvery (i + 1) then 1 else 0 := by
  cases failEvery with
  | none => rfl
  | some k =>
    simp only [deadLettered, failsAt, Nat.succ_div, Nat.dvd_iff_mod_eq_zero, Option.any_some,
      decide_eq_true_eq]

theorem deadLettered_le (failEvery : Option Nat) (i : Nat) : deadLettered failEvery i ≤ i := by
  cases failEvery with
  | none => exact Nat.zero_le i
  | some k => exact Nat.div_le_self i k

end PeekLock.Demo
