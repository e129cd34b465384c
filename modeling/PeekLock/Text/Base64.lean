import PeekLock.Text.Utf8

/-! # Base64 with padding

The standard alphabet in canonical form: every text that `decode` accepts is the
one that `encode` writes.  A refusal says which octet is at fault.

The last group of four symbols is read apart from the groups before it, because
only there padding may stand and unused bits occur.
-/

namespace PeekLock.Base64

/-- Why a text is no base64 text. -/
inductive DecodeError where
  /-- An octet outside the alphabet, or padding where none may stand. -/
  | symbol (offset : Nat) (octet : UInt8)
  /-- The last group holds a single symbol. -/
  | length (symbols : Nat)
  /-- The last symbol has unused bits that are not zero. -/
  | lastSymbol (offset : Nat) (octet : UInt8)
  /-- The last group is not filled up to four octets. -/
  | padding
deriving DecidableEq, Repr

def DecodeError.message : DecodeError → String
  | .symbol offset octet => s!"Invalid symbol {octet.toNat}, offset {offset}."
  | .length symbols => s!"Invalid input length: {symbols}"
  | .lastSymbol offset octet => s!"Invalid last symbol {octet.toNat}, offset {offset}."
  | .padding => "Invalid padding"

/-- The octet that fills up the last group, an equals sign. -/
def pad : UInt8 := 0x3D

def symbol (n : Nat) : UInt8 :=
  if n < 26 then UInt8.ofNat (0x41 + n)
  else if n < 52 then UInt8.ofNat (0x61 + (n - 26))
  else if n < 62 then UInt8.ofNat (0x30 + (n - 52))
  else if n = 62 then 0x2B
  else 0x2F

def sextet? (b : UInt8) : Option Nat :=
  if 0x41 ≤ b ∧ b ≤ 0x5A then some (b.toNat - 0x41)
  else if 0x61 ≤ b ∧ b ≤ 0x7A then some (b.toNat - 0x61 + 26)
  else if 0x30 ≤ b ∧ b ≤ 0x39 then some (b.toNat - 0x30 + 52)
  else if b = 0x2B then some 62
  else if b = 0x2F then some 63
  else none

/-! ## Writing -/

def encodeTriple (a b c : UInt8) : Octets :=
  [symbol (a.toNat / 4),
    symbol (a.toNat % 4 * 16 + b.toNat / 16),
    symbol (b.toNat % 16 * 4 + c.toNat / 64),
    symbol (c.toNat % 64)]

/-- The base64 text of octets, itself as octets. -/
def encode : Octets → Octets
  | [] => []
  | [a] => [symbol (a.toNat / 4), symbol (a.toNat % 4 * 16), pad, pad]
  | [a, b] =>
    [symbol (a.toNat / 4), symbol (a.toNat % 4 * 16 + b.toNat / 16),
      symbol (b.toNat % 16 * 4), pad]
  | a :: b :: c :: rest => encodeTriple a b c ++ encode rest

/-! ## Reading -/

def sextetAt (offset : Nat) (b : UInt8) : Except DecodeError Nat :=
  match sextet? b with
  | some n => .ok n
  | none => .error (.symbol offset b)

def decodeQuad (offset : Nat) (a b c d : UInt8) : Except DecodeError Octets := do
  let a ← sextetAt offset a
  let b ← sextetAt (offset + 1) b
  let c ← sextetAt (offset + 2) c
  let d ← sextetAt (offset + 3) d
  return [UInt8.ofNat (a * 4 + b / 16), UInt8.ofNat (b % 16 * 16 + c / 4),
    UInt8.ofNat (c % 4 * 64 + d)]

/-- What the last group holds: its symbols in order, and its padding with the offset
    where that begins. -/
structure Tail where
  symbols : List (UInt8 × Nat) := []
  padding : Nat := 0
  paddingStart : Nat := 0

/-- The last group octet by octet.  Padding may not stand in its first two places
    nor before a symbol. -/
def Tail.scan (base : Nat) : Nat → Tail → Octets → Except DecodeError Tail
  | _, tail, [] => .ok tail
  | i, tail, b :: rest =>
    if b = pad then
      if i < 2 then
        .error (.symbol (base + i) b)
      else
        let start := if tail.padding = 0 then i else tail.paddingStart
        scan base (i + 1) { tail with padding := tail.padding + 1, paddingStart := start } rest
    else if 0 < tail.padding then
      .error (.symbol (base + tail.paddingStart) pad)
    else
      match sextet? b with
      | none => .error (.symbol (base + i) b)
      | some n => scan base (i + 1) { tail with symbols := tail.symbols ++ [(b, n)] } rest

def Tail.octets (base : Nat) (tail : Tail) : Except DecodeError Octets :=
  if tail.symbols.length < 2 then
    .error (.length (base + tail.symbols.length))
  else if (tail.padding + tail.symbols.length) % 4 ≠ 0 then
    .error .padding
  else
    match tail.symbols with
    | [(_, a), (y, b)] =>
      if b % 16 ≠ 0 then .error (.lastSymbol (base + 1) y)
      else .ok [UInt8.ofNat (a * 4 + b / 16)]
    | [(_, a), (_, b), (z, c)] =>
      if c % 4 ≠ 0 then .error (.lastSymbol (base + 2) z)
      else .ok [UInt8.ofNat (a * 4 + b / 16), UInt8.ofNat (b % 16 * 16 + c / 4)]
    | [(_, a), (_, b), (_, c), (_, d)] =>
      .ok [UInt8.ofNat (a * 4 + b / 16), UInt8.ofNat (b % 16 * 16 + c / 4),
        UInt8.ofNat (c % 4 * 64 + d)]
    | _ => .ok []

def decodeFrom (offset : Nat) : Octets → Except DecodeError Octets
  | a :: b :: c :: d :: e :: rest => do
    let head ← decodeQuad offset a b c d
    let tail ← decodeFrom (offset + 4) (e :: rest)
    return head ++ tail
  | [] => .ok []
  | last => do
    let tail ← Tail.scan offset 0 {} last
    tail.octets offset

/-- The octets of a base64 text.  A text with one octet too many is first of all blamed
    on that octet if it is no symbol. -/
def decode (text : Octets) : Except DecodeError Octets :=
  match text.getLast? with
  | some last =>
    if text.length % 4 = 1 ∧ last ≠ pad ∧ sextet? last = none then
      .error (.symbol (text.length - 1) last)
    else
      decodeFrom 0 text
  | none => .ok []

end PeekLock.Base64
