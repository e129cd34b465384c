import PeekLock.Number.Limits
import PeekLock.Time.Calendar
import PeekLock.Time.Duration

/-! # Timestamps

Instants between the years -262143 and +262142, to the nanosecond.  A leap second is told
by a count of nanoseconds that runs on past one second; it occurs only at the end
of a minute.  `after` is addition that stops at the last instant.
-/

namespace PeekLock

/-- An instant. -/
structure Timestamp where
  /-- Seconds since 1970-01-01T00:00:00Z, rounded down. -/
  seconds : Int
  /-- Nanoseconds since then; from a thousand million on, inside a leap second. -/
  nanos : Nat
  lowest : -8334601228800 ≤ seconds
  highest : seconds ≤ 8210266876799
  nanos_lt : nanos < 2000000000
  leap_at_minute_end : 1000000000 ≤ nanos → seconds % 60 = 59
deriving DecidableEq, Repr

namespace Timestamp

def perSecond : Nat := 1000000000

/-- The instant of its parts, if there is one. -/
def ofParts? (seconds : Int) (nanos : Nat) : Option Timestamp :=
  if h : -8334601228800 ≤ seconds ∧ seconds ≤ 8210266876799 ∧ nanos < 2000000000 ∧
      (1000000000 ≤ nanos → seconds % 60 = 59) then
    some ⟨seconds, nanos, h.1, h.2.1, h.2.2.1, h.2.2.2⟩
  else none

def last : Timestamp :=
  ⟨8210266876799, 999999999, by decide, by decide, by decide, by decide⟩

/-- The beginning of 1970. -/
def epoch : Timestamp :=
  ⟨0, 0, by decide, by decide, by decide, by decide⟩

instance : Inhabited Timestamp := ⟨epoch⟩

def InLeapSecond (t : Timestamp) : Prop := perSecond ≤ t.nanos

instance (t : Timestamp) : Decidable t.InLeapSecond :=
  inferInstanceAs (Decidable (_ ≤ _))

/-- Earlier or the same; a leap second follows the second that it belongs to. -/
def le (a b : Timestamp) : Prop :=
  a.seconds < b.seconds ∨ (a.seconds = b.seconds ∧ a.nanos ≤ b.nanos)

instance : LE Timestamp := ⟨le⟩

instance (a b : Timestamp) : Decidable (a ≤ b) :=
  inferInstanceAs (Decidable (_ ∨ _ ∧ _))

def compare (a b : Timestamp) : Ordering :=
  match Ord.compare a.seconds b.seconds with
  | .eq => Ord.compare a.nanos b.nanos
  | other => other

/-- The longest step that one addition takes, 2^63 - 1 milliseconds. -/
def longestStep : Duration := Duration.ofMillis maxSigned64

/-- The instant a duration later, or the last instant if there is none so late.  Time
    spent inside a leap second stays there while the second lasts; a longer step leaves it and
    goes on as if the leap second were the ordinary one before it. -/
def after (t : Timestamp) (d : Duration) : Timestamp :=
  let step := min d.nanoseconds longestStep.nanoseconds
  if t.InLeapSecond ∧ t.nanos + step < 2 * perSecond then
    (ofParts? t.seconds (t.nanos + step)).getD last
  else
    let nanos := t.nanos % perSecond + step
    (ofParts? (t.seconds + (nanos / perSecond : Nat)) (nanos % perSecond)).getD last

/-- The instant so many milliseconds after the beginning of 1970. -/
def ofMillis (n : Nat) : Timestamp :=
  epoch.after (Duration.ofMillis n)

/-! ## Calendar fields -/

def date (t : Timestamp) : Date :=
  Date.ofDays (t.seconds / 86400)

def secondOfDay (t : Timestamp) : Nat :=
  (t.seconds % 86400).toNat

/-- The hour, from 0 to 23. -/
def hour (t : Timestamp) : Nat := t.secondOfDay / 3600

/-- The minute, from 0 to 59. -/
def minute (t : Timestamp) : Nat := t.secondOfDay / 60 % 60

/-- The second, 60 inside a leap second. -/
def second (t : Timestamp) : Nat := t.secondOfDay % 60 + t.nanos / perSecond

/-- The nanoseconds behind the second. -/
def subsecond (t : Timestamp) : Nat := t.nanos % perSecond

end Timestamp

end PeekLock
