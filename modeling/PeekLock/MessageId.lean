import PeekLock.Error
import PeekLock.Json.Value

/-! # Message identifiers

An identifier is any text but the empty one, which stands for an envelope without identifier.
Fresh identifiers are random: 128 bits in 32 small hexadecimal digits, with the marks of version 4
and of the common variant in their places.  Where a run has to be told again they are numbered
instead.
-/

namespace PeekLock

/-- The identifier of a message. -/
structure MessageId where
  text : String
deriving DecidableEq, Repr, Inhabited

namespace MessageId

/-- The identifier of an envelope that has none. -/
def empty : MessageId := ⟨""⟩

/-- Whether there is no identifier. -/
def isEmpty (id : MessageId) : Bool :=
  id.text.isEmpty

def parse (s : String) : Except ValidationError MessageId :=
  if s.isEmpty then .error (.required "message_id") else .ok ⟨s⟩

/-- So many small hexadecimal digits of a number, the highest first. -/
def hexDigits : (count : Nat) → Nat → List Char
  | 0, _ => []
  | count + 1, n => hexDigits count (n / 16) ++ [Json.hexDigit (n % 16)]

/-- The identifier made from random bits: the thirteenth digit is 4, and the seventeenth
    one of 8, 9, a and b. -/
def ofRandomBits (high low : UInt64) : MessageId :=
  let versioned := high.toNat / 0x10000 * 0x10000 + 0x4000 + high.toNat % 0x1000
  let variant := 0x8000000000000000 + low.toNat % 0x4000000000000000
  ⟨String.ofList (hexDigits 16 versioned ++ hexDigits 16 variant)⟩

def numbered (n : Nat) : MessageId :=
  ⟨"#" ++ toString n⟩

/-- A chain of 64-bit numbers without short repetition (the mixing step of the
    generator with the golden ratio as its stride). -/
def mix (state : UInt64) : UInt64 :=
  let z := (state ^^^ (state >>> 30)) * 0xBF58476D1CE4E5B9
  let z := (z ^^^ (z >>> 27)) * 0x94D049BB133111EB
  z ^^^ (z >>> 31)

def fresh (seed : UInt64) : (count : Nat) → List MessageId
  | 0 => []
  | count + 1 =>
    let stride : UInt64 := 0x9E3779B97F4A7C15
    let first := seed + stride
    let second := first + stride
    ofRandomBits (mix first) (mix second) :: fresh second count

end MessageId

end PeekLock
