/-! # UTF-8 octets

The octets of a text and two ways back.  `decode?` is strict: it reads one
scalar value at a time and refuses the octets unless all of them are
well-formed.  `decodeLossy` is the octet-by-octet machine that never refuses: each
maximal ill-formed subpart becomes one replacement character.
-/

namespace PeekLock

abbrev Octets := List UInt8

namespace Utf8

def encodeChars (cs : List Char) : Octets :=
  cs.flatMap String.utf8EncodeChar

def encode (s : String) : Octets :=
  encodeChars s.toList

/-! ## Strict reading -/

def isTail (b : UInt8) : Bool :=
  0x80 ≤ b && b ≤ 0xBF

def tailBits (b : UInt8) : Nat :=
  b.toNat % 64

/-- The scalar value at the front of the octets, in its shortest form only, with the
    octets after it. -/
def scalar? : Octets → Option (Char × Octets)
  | [] => none
  | a :: rest =>
    if a < 0x80 then
      some (Char.ofNat a.toNat, rest)
    else if a < 0xE0 then
      match rest with
      | b :: rest =>
        let n := a.toNat % 32 * 64 + tailBits b
        if 0xC0 ≤ a ∧ isTail b ∧ 0x80 ≤ n then some (Char.ofNat n, rest) else none
      | _ => none
    else if a < 0xF0 then
      match rest with
      | b :: c :: rest =>
        let n := (a.toNat % 16 * 64 + tailBits b) * 64 + tailBits c
        if isTail b ∧ isTail c ∧ 0x800 ≤ n ∧ (n < 0xD800 ∨ 0xDFFF < n) then
          some (Char.ofNat n, rest)
        else none
      | _ => none
    else if a < 0xF8 then
      match rest with
      | b :: c :: d :: rest =>
        let n := ((a.toNat % 8 * 64 + tailBits b) * 64 + tailBits c) * 64 + tailBits d
        if isTail b ∧ isTail c ∧ isTail d ∧ 0x10000 ≤ n ∧ n ≤ 0x10FFFF then
          some (Char.ofNat n, rest)
        else none
      | _ => none
    else none

/-- Reading a scalar value consumes at least one octet, so reading a text ends. -/
theorem length_lt_of_scalar? {bs rest : Octets} {c : Char}
    (h : scalar? bs = some (c, rest)) : rest.length < bs.length := by
  unfold scalar? at h
  split at h
  · simp at h
  · repeat' split at h
    all_goals simp_all
    all_goals omega

/-- Strict reading with the characters read so far, newest first. -/
def decodeFrom? (seen : List Char) (bs : Octets) : Option (List Char) :=
  match _h : bs with
  | [] => some seen.reverse
  | _ :: _ =>
    match _read : scalar? bs with
    | none => none
    | some (c, rest) => decodeFrom? (c :: seen) rest
termination_by bs.length
decreasing_by
  have := length_lt_of_scalar? _read
  simp_all

/-- The characters of well-formed octets, and nothing for any others. -/
def decodeChars? (bs : Octets) : Option (List Char) :=
  decodeFrom? [] bs

def decode? (bs : Octets) : Option String :=
  (decodeChars? bs).map String.ofList

/-! ## Reading with replacement -/

/-- Stands for octets that are no character. -/
def replacement : Char := '\uFFFD'

/-- Where the machine stands between two octets. -/
inductive State where
  /-- Between characters. -/
  | start
  /-- Inside a character: the next octet has to lie between `lo` and `hi`, `later` more
      continuation octets follow it, and `bits` holds the value so far. -/
  | inside (lo hi : UInt8) (later : Nat) (bits : Nat)
deriving DecidableEq, Repr

def State.begin (b : UInt8) : List Char × State :=
  if b < 0x80 then ([Char.ofNat b.toNat], .start)
  else if b < 0xC2 then ([replacement], .start)
  else if b < 0xE0 then ([], .inside 0x80 0xBF 0 (b.toNat - 0xC0))
  else if b = 0xE0 then ([], .inside 0xA0 0xBF 1 0)
  else if b = 0xED then ([], .inside 0x80 0x9F 1 0xD)
  else if b < 0xF0 then ([], .inside 0x80 0xBF 1 (b.toNat - 0xE0))
  else if b = 0xF0 then ([], .inside 0x90 0xBF 2 0)
  else if b < 0xF4 then ([], .inside 0x80 0xBF 2 (b.toNat - 0xF0))
  else if b = 0xF4 then ([], .inside 0x80 0x8F 2 4)
  else ([replacement], .start)

/-- One octet: the characters that it completes and the state after it.  An octet
    that cannot go on ends the character with a replacement and begins the next. -/
def State.next : State → UInt8 → List Char × State
  | .start, b => State.begin b
  | .inside lo hi later bits, b =>
    if lo ≤ b ∧ b ≤ hi then
      let bits := bits * 64 + b.toNat % 64
      match later with
      | 0 => ([Char.ofNat bits], .start)
      | later + 1 => ([], .inside 0x80 0xBF later bits)
    else
      let (cs, state) := State.begin b
      (replacement :: cs, state)

/-- The machine on all octets, with the characters read so far, newest first. -/
def decodeLossyFrom : State → List Char → Octets → List Char
  | .start, seen, [] => seen.reverse
  | .inside .., seen, [] => (replacement :: seen).reverse
  | state, seen, b :: bs =>
    let (cs, state) := state.next b
    decodeLossyFrom state (cs.reverse ++ seen) bs

def decodeCharsLossy (bs : Octets) : List Char :=
  decodeLossyFrom .start [] bs

def decodeLossy (bs : Octets) : String :=
  String.ofList (decodeCharsLossy bs)

end Utf8

end PeekLock
