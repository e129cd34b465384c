import PeekLock.Json.Failure
import PeekLock.Number.Limits
import PeekLock.Text.Utf8

/-! # The words of JSON

Readers for blanks, literals, strings and numerals at the front of the octets.  Each
gives what it read with the octets after it, or the first fault.  Strings and numerals
come in two strengths: contents that somebody wants are checked to the end, while those
of an ignored value only have to keep the grammar.
-/

namespace PeekLock.Json

abbrev Reader (α : Type) := Octets → Except Failure (α × Octets)

/-- Space, tab, line feed and carriage return stand between words. -/
def isBlank (b : UInt8) : Bool :=
  b = 0x20 || b = 0x09 || b = 0x0A || b = 0x0D

def skipBlanks : Octets → Octets
  | [] => []
  | b :: rest => if isBlank b then skipBlanks rest else b :: rest

/-- The remaining octets of a literal whose first one has been seen. -/
def expectOctets : Octets → Reader Unit
  | [], bs => .ok ((), bs)
  | _ :: _, [] => .error .truncated
  | e :: es, b :: bs => if e = b then expectOctets es bs else .error .malformed

/-- `ull` of `null`. -/
def ull : Octets := [0x75, 0x6C, 0x6C]

/-- `rue` of `true`. -/
def rue : Octets := [0x72, 0x75, 0x65]

/-- `alse` of `false`. -/
def alse : Octets := [0x61, 0x6C, 0x73, 0x65]

/-! ## Strings -/

def hexValue? (b : UInt8) : Option Nat :=
  if 0x30 ≤ b ∧ b ≤ 0x39 then some (b.toNat - 0x30)
  else if 0x41 ≤ b ∧ b ≤ 0x46 then some (b.toNat - 0x37)
  else if 0x61 ≤ b ∧ b ≤ 0x66 then some (b.toNat - 0x57)
  else none

def hexUnit : Reader Nat
  | a :: b :: c :: d :: rest =>
    match hexValue? a, hexValue? b, hexValue? c, hexValue? d with
    | some a, some b, some c, some d => .ok (((a * 16 + b) * 16 + c) * 16 + d, rest)
    | _, _, _, _ => .error .malformed
  | _ => .error .truncated

def escapeOctet? (b : UInt8) : Option UInt8 :=
  if b = 0x22 ∨ b = 0x5C ∨ b = 0x2F then some b
  else if b = 0x62 then some 0x08
  else if b = 0x66 then some 0x0C
  else if b = 0x6E then some 0x0A
  else if b = 0x72 then some 0x0D
  else if b = 0x74 then some 0x09
  else none

/-- The character of an escaped code unit; a high surrogate needs the escaped low one
    right behind it. -/
def escapedChar : Reader Char := fun bs => do
  let (unit, rest) ← hexUnit bs
  if 0xDC00 ≤ unit ∧ unit ≤ 0xDFFF then
    .error .malformed
  else if 0xD800 ≤ unit ∧ unit ≤ 0xDBFF then
    match rest with
    | [] => .error .truncated
    | [0x5C] => .error .truncated
    | 0x5C :: 0x75 :: rest =>
      let (low, rest) ← hexUnit rest
      if 0xDC00 ≤ low ∧ low ≤ 0xDFFF then
        .ok (Char.ofNat (0x10000 + (unit - 0xD800) * 0x400 + (low - 0xDC00)), rest)
      else .error .malformed
    | _ => .error .malformed
  else
    .ok (Char.ofNat unit, rest)

/-- One step inside a string: its end, or the octets of the next piece. -/
def stringPiece : Reader (Option Octets)
  | [] => .error .truncated
  | b :: rest =>
    if b = 0x22 then .ok (none, rest)
    else if b = 0x5C then
      match rest with
      | [] => .error .truncated
      | e :: rest =>
        if e = 0x75 then do
          let (c, rest) ← escapedChar rest
          .ok (some (String.utf8EncodeChar c), rest)
        else
          match escapeOctet? e with
          | some o => .ok (some [o], rest)
          | none => .error .malformed
    else if b < 0x20 then .error .malformed
    else .ok (some [b], rest)

/-- The octets of a string behind its opening quote.  Every piece takes at least one
    octet, so `rounds` may be the number of octets. -/
def stringOctets (seen : Octets) : (rounds : Nat) → Reader Octets
  | 0, _ => .error .truncated
  | rounds + 1, bs => do
    match ← stringPiece bs with
    | (none, rest) => .ok (seen.reverse, rest)
    | (some piece, rest) => stringOctets (piece.reverse ++ seen) rounds rest

/-- The text of a string behind its opening quote. -/
def stringBody : Reader String := fun bs => do
  let (octets, rest) ← stringOctets [] (bs.length + 1) bs
  match Utf8.decode? octets with
  | some s => .ok (s, rest)
  | none => .error .malformed

/-- Passes over a string behind its opening quote.  Code units need not be paired, and
    octets need not be UTF-8. -/
def skipString : (rounds : Nat) → Reader Unit
  | 0, _ => .error .truncated
  | _ + 1, [] => .error .truncated
  | rounds + 1, b :: rest =>
    if b = 0x22 then .ok ((), rest)
    else if b = 0x5C then
      match rest with
      | [] => .error .truncated
      | e :: rest =>
        if e = 0x75 then do
          let (_, rest) ← hexUnit rest
          skipString rounds rest
        else
          match escapeOctet? e with
          | some _ => skipString rounds rest
          | none => .error .malformed
    else if b < 0x20 then .error .malformed
    else skipString rounds rest

/-! ## Numerals -/

def isDigit (b : UInt8) : Bool :=
  0x30 ≤ b && b ≤ 0x39

/-- The parts of a number as written.  Digits are values below ten. -/
structure Numeral where
  negative : Bool
  whole : List Nat
  fraction : Option (List Nat)
  /-- Whether the exponent is negative, and its digits. -/
  exponent : Option (Bool × List Nat)
deriving DecidableEq, Repr

/-- Digits at the front, and the octets after them. -/
def takeDigits : Octets → List Nat × Octets
  | [] => ([], [])
  | b :: rest =>
    if isDigit b then
      let (ds, rest) := takeDigits rest
      ((b.toNat - 0x30) :: ds, rest)
    else ([], b :: rest)

/-- Digits at the front, at least one; `atEnd` is the fault if the text ends instead. -/
def digits1 (atEnd : Failure) : Reader (List Nat) := fun bs =>
  match takeDigits bs with
  | ([], []) => .error atEnd
  | ([], _) => .error .malformed
  | (ds, rest) => .ok (ds, rest)

/-- The part after a decimal point, if there is one. -/
def fractionPart (atEnd : Failure) : Reader (Option (List Nat))
  | 0x2E :: rest => do
    let (ds, rest) ← digits1 atEnd rest
    .ok (some ds, rest)
  | bs => .ok (none, bs)

/-- The exponent, if there is one. -/
def exponentPart (atEnd : Failure) : Reader (Option (Bool × List Nat))
  | [] => .ok (none, [])
  | b :: rest =>
    if b = 0x65 ∨ b = 0x45 then do
      let (negative, rest) :=
        match rest with
        | 0x2B :: rest => (false, rest)
        | 0x2D :: rest => (true, rest)
        | rest => (false, rest)
      let (ds, rest) ← digits1 atEnd rest
      .ok (some (negative, ds), rest)
    else .ok (none, b :: rest)

/-- A number behind its sign.  A whole part of several digits does not begin with zero. -/
def numeral (negative : Bool) (atEnd : Failure) : Reader Numeral := fun bs => do
  let (whole, rest) ← digits1 atEnd bs
  if 1 < whole.length ∧ whole.head? = some 0 then
    .error .malformed
  else
    let (fraction, rest) ← fractionPart atEnd rest
    let (exponent, rest) ← exponentPart atEnd rest
    .ok (⟨negative, whole, fraction, exponent⟩, rest)

/-- A number as read: an integer of 64 bits, signed or unsigned, or else a binary
    floating-point number. -/
inductive Number where
  | integer (n : Int)
  | real (x : Float)

def maxSignificand : Nat := maxUnsigned64

/-- The digits as a significand, as far as it can hold them, with the number of digits
    left over. -/
def gatherWhole (significand : Nat) : List Nat → Nat × Nat
  | [] => (significand, 0)
  | d :: ds =>
    if significand * 10 + d ≤ maxSignificand then gatherWhole (significand * 10 + d) ds
    else (significand, ds.length + 1)

/-- Digits after the point behind a significand, as far as it can hold them, with the
    number of digits taken. -/
def gatherFraction (significand taken : Nat) : List Nat → Nat × Nat
  | [] => (significand, taken)
  | d :: ds =>
    if significand * 10 + d ≤ maxSignificand then
      gatherFraction (significand * 10 + d) (taken + 1) ds
    else (significand, taken)

def digitsValue (ds : List Nat) : Nat :=
  ds.foldl (fun n d => n * 10 + d) 0

/-- The significand times a power of ten, by one multiplication or division where the
    power is a floating-point number; a larger divisor is divided by in steps.  A result
    without bound is refused. -/
def scaleByTen (x : Float) (exponent : Int) : (rounds : Nat) → Except Failure Float
  | 0 => .ok x
  | rounds + 1 =>
    if exponent.natAbs ≤ 308 then
      let power := Float.ofScientific 1 false exponent.natAbs
      if 0 ≤ exponent then
        let y := x * power
        if y.isInf then .error .malformed else .ok y
      else .ok (x / power)
    else if x == 0 then .ok x
    else if 0 ≤ exponent then .error .malformed
    else scaleByTen (x / Float.ofScientific 1 false 308) (exponent + 308) rounds

def Numeral.value (n : Numeral) : Except Failure Number := do
  let signed (x : Float) : Float := if n.negative then -x else x
  let (whole, left) := gatherWhole 0 n.whole
  let (significand, taken) := gatherFraction whole 0 (n.fraction.getD [])
  if left = 0 ∧ n.fraction.isNone ∧ n.exponent.isNone then
    if !n.negative then return .integer significand
    else if 0 < significand ∧ significand ≤ maxSigned64 + 1 then
      return .integer (-(significand : Int))
    else return .real (-(UInt64.ofNat significand).toFloat)
  else
    let point : Int := (left : Int) - taken
    let (negative, digits) := n.exponent.getD (false, [])
    let magnitude := digitsValue digits
    if maxSigned32 < magnitude then
      if 0 < significand ∧ !negative then .error .malformed
      else return .real (signed 0)
    else
      let exponent := if negative then point - magnitude else point + magnitude
      let x ← scaleByTen (UInt64.ofNat significand).toFloat exponent 8
      return .real (signed x)

end PeekLock.Json
