import PeekLock.Json.Lexical
import PeekLock.Json.Value
import PeekLock.Number.Limits
import PeekLock.Text.Quoted

/-! # Typed JSON reading

Readers for the types that travel as JSON.  A reader goes through the text once: a
value of the wrong type is reported where it begins, before anything behind it is looked
at, and a missing field when its object ends.  Values may be nested 127 deep; an ignored
value has no such bound.
-/

namespace PeekLock.Json

def maxDepth : Nat := 127

/-! ## Values of the wrong type -/

/-- The report on a value of another type than the one read. -/
def wrongType (found expected : String) : Failure :=
  .data s!"invalid type: {found}, expected {expected}"

/-- The report on a value of the right type outside its range. -/
def wrongValue (found expected : String) : Failure :=
  .data s!"invalid value: {found}, expected {expected}"

def Number.described : Number → String
  | .integer n => s!"integer `{String.ofList (integerChars n)}`"
  | .real x => s!"floating point `{String.ofList (realChars x)}`"

/-- A number behind its first octet, with the sign already seen. -/
def number (negative : Bool) : Reader Number := fun bs => do
  let (n, rest) ← numeral negative .truncated bs
  let v ← n.value
  return (v, rest)

/-- Reads a value that does not fit: a scalar to its end, so that a fault inside comes
    first, and an array or object as far as its bracket. -/
def mismatch {α : Type} (expected : String) : Reader α
  | [] => .error .truncated
  | b :: rest =>
    if b = 0x6E then do
      let _ ← expectOctets ull rest
      .error (wrongType "null" expected)
    else if b = 0x74 then do
      let _ ← expectOctets rue rest
      .error (wrongType "boolean `true`" expected)
    else if b = 0x66 then do
      let _ ← expectOctets alse rest
      .error (wrongType "boolean `false`" expected)
    else if b = 0x2D then do
      let (n, _) ← number true rest
      .error (wrongType n.described expected)
    else if isDigit b then do
      let (n, _) ← number false (b :: rest)
      .error (wrongType n.described expected)
    else if b = 0x22 then do
      let (s, _) ← stringBody rest
      .error (wrongType s!"string {Quoted.quote s}" expected)
    else if b = 0x5B then .error (wrongType "sequence" expected)
    else if b = 0x7B then .error (wrongType "map" expected)
    else .error .malformed

/-! ## Scalars -/

def readText : Reader String := fun bs =>
  match skipBlanks bs with
  | 0x22 :: rest => stringBody rest
  | bs => mismatch "a string" bs

def readBool : Reader Bool := fun bs =>
  match skipBlanks bs with
  | 0x74 :: rest => do
    let (_, rest) ← expectOctets rue rest
    return (true, rest)
  | 0x66 :: rest => do
    let (_, rest) ← expectOctets alse rest
    return (false, rest)
  | bs => mismatch "a boolean" bs

def readNull : Reader Unit := fun bs =>
  match skipBlanks bs with
  | 0x6E :: rest => expectOctets ull rest
  | bs => mismatch "unit" bs

/-- An integer between two bounds, of a type that reports name. -/
def readInteger (lowest highest : Int) (type : String) : Reader Int := fun bs => do
  let fits : Number × Octets → Except Failure (Int × Octets)
    | (.integer n, rest) =>
      if lowest ≤ n ∧ n ≤ highest then .ok (n, rest)
      else .error (wrongValue (Number.described (.integer n)) type)
    | (n, _) => .error (wrongType n.described type)
  match skipBlanks bs with
  | 0x2D :: rest => fits (← number true rest)
  | b :: rest => if isDigit b then fits (← number false (b :: rest)) else mismatch type (b :: rest)
  | [] => .error .truncated

def readUnsigned (bits : Nat) : Reader Nat := fun bs => do
  let (n, rest) ← readInteger 0 (Nat.pow 2 bits - 1) s!"u{bits}" bs
  return (n.toNat, rest)

/-- A signed integer of 64 bits. -/
def readSigned : Reader Int :=
  readInteger minSigned64 maxSigned64 "i64"

/-- A value, or null for none. -/
def readOption {α : Type} (reader : Reader α) : Reader (Option α) := fun bs =>
  match skipBlanks bs with
  | 0x6E :: rest => do
    let (_, rest) ← expectOctets ull rest
    return (none, rest)
  | bs => do
    let (v, rest) ← reader bs
    return (some v, rest)

/-! ## Arrays and objects

Both are read item by item.  `nextItem` and `nextMember` stand in front of an item,
or in front of the closing bracket, which they leave for `closeArray` and `closeObject`. -/

/-- Passes the comma in front of an item; none in front of the closing bracket. -/
def nextItem (first : Bool) (bs : Octets) : Except Failure (Option Octets) :=
  match skipBlanks bs with
  | [] => .error .truncated
  | b :: rest =>
    if b = 0x5D then .ok none
    else if b = 0x2C ∧ !first then
      match skipBlanks rest with
      | [] => .error .truncated
      | c :: rest => if c = 0x5D then .error .malformed else .ok (some (c :: rest))
    else if first then .ok (some (b :: rest))
    else .error .malformed

/-- Passes the comma in front of a member, and its opening quote. -/
def nextKey (first : Bool) (bs : Octets) : Except Failure (Option Octets) :=
  let key : Octets → Except Failure (Option Octets)
    | [] => .error .truncated
    | b :: rest => if b = 0x22 then .ok (some rest) else .error .malformed
  match skipBlanks bs with
  | [] => .error .truncated
  | b :: rest =>
    if b = 0x7D then .ok none
    else if b = 0x2C ∧ !first then key (skipBlanks rest)
    else if first then key (b :: rest)
    else .error .malformed

def colon : Reader Unit := fun bs =>
  match skipBlanks bs with
  | [] => .error .truncated
  | b :: rest => if b = 0x3A then .ok ((), rest) else .error .malformed

def closeArray : Reader Unit := fun bs =>
  match skipBlanks bs with
  | [] => .error .truncated
  | b :: rest => if b = 0x5D then .ok ((), rest) else .error .malformed

def closeObject : Reader Unit := fun bs =>
  match skipBlanks bs with
  | [] => .error .truncated
  | b :: rest => if b = 0x7D then .ok ((), rest) else .error .malformed

/-- The items of an array behind its bracket.  Every item takes at least one octet, so
    `rounds` may be the number of octets. -/
def itemsFrom {α : Type} (item : Reader α) (seen : List α) (first : Bool) :
    (rounds : Nat) → Reader (List α)
  | 0, _ => .error .truncated
  | rounds + 1, bs => do
    match ← nextItem first bs with
    | none =>
      let (_, rest) ← closeArray bs
      return (seen.reverse, rest)
    | some bs =>
      let (v, rest) ← item bs
      itemsFrom item (v :: seen) false rounds rest

/-- The members of an object behind its brace, gathered one by one.  A member sees its
    key and what was gathered before it. -/
def membersFrom {σ : Type} (member : σ → String → Reader σ) (state : σ) (first : Bool) :
    (rounds : Nat) → Octets → Except Failure (σ × Octets)
  | 0, _ => .error .truncated
  | rounds + 1, bs => do
    match ← nextKey first bs with
    | none => return (state, bs)
    | some bs =>
      let (key, rest) ← stringBody bs
      let (state, rest) ← member state key rest
      membersFrom member state false rounds rest

def readArray {α : Type} (depth : Nat) (item : Nat → Reader α) : Reader (List α) := fun bs =>
  match skipBlanks bs with
  | 0x5B :: rest =>
    match depth with
    | 0 => .error .malformed
    | depth + 1 => itemsFrom (item depth) [] true (rest.length + 1) rest
  | bs => mismatch "a sequence" bs

/-- An object with free keys and values of one type; a later value for a key wins. -/
def readMap {α : Type} (depth : Nat) (value : Nat → Reader α) : Reader (List (String × α)) :=
  fun bs =>
  match skipBlanks bs with
  | 0x7B :: rest =>
    match depth with
    | 0 => .error .malformed
    | depth + 1 => do
      let member entries key bs := do
        let (_, bs) ← colon bs
        let (v, rest) ← value depth bs
        return (Keyed.insert key v entries, rest)
      let (entries, rest) ← membersFrom member [] true (rest.length + 1) rest
      let (_, rest) ← closeObject rest
      return (entries, rest)
  | bs => mismatch "a map" bs

/-! ## Ignored values -/

/-- Passes over any value.  Every level takes at least one octet, so `levels` may be the
    number of octets. -/
def skipValue : (levels : Nat) → Reader Unit
  | 0, _ => .error .truncated
  | levels + 1, bs =>
    match skipBlanks bs with
    | [] => .error .truncated
    | b :: rest =>
      if b = 0x6E then expectOctets ull rest
      else if b = 0x74 then expectOctets rue rest
      else if b = 0x66 then expectOctets alse rest
      else if b = 0x22 then skipString (rest.length + 1) rest
      else if b = 0x2D ∨ isDigit b then do
        let (_, rest) ← numeral (b = 0x2D) .malformed (if b = 0x2D then rest else b :: rest)
        return ((), rest)
      else if b = 0x5B then do
        let (_, rest) ← itemsFrom (skipValue levels) [] true (rest.length + 1) rest
        return ((), rest)
      else if b = 0x7B then skipMembers levels true (rest.length + 1) rest
      else .error .malformed
where
  /-- Passes over the members of an object behind its brace. -/
  skipMembers (levels : Nat) (first : Bool) : (rounds : Nat) → Reader Unit
    | 0, _ => .error .truncated
    | rounds + 1, bs => do
      match ← nextKey first bs with
      | none => closeObject bs
      | some bs =>
        let (_, rest) ← skipString (bs.length + 1) bs
        let (_, rest) ← colon rest
        let (_, rest) ← skipValue levels rest
        skipMembers levels false rounds rest

def readIgnored : Reader Unit := fun bs =>
  skipValue (bs.length + 1) bs

/-! ## Values of any type -/

def readValue : (depth : Nat) → Reader Json := fun depth bs =>
  match skipBlanks bs with
  | [] => .error .truncated
  | b :: rest =>
    if b = 0x6E then do
      let (_, rest) ← expectOctets ull rest
      return (.null, rest)
    else if b = 0x74 then do
      let (_, rest) ← expectOctets rue rest
      return (.bool true, rest)
    else if b = 0x66 then do
      let (_, rest) ← expectOctets alse rest
      return (.bool false, rest)
    else if b = 0x22 then do
      let (s, rest) ← stringBody rest
      return (.text s, rest)
    else if b = 0x2D ∨ isDigit b then do
      let (n, rest) ← number (b = 0x2D) (if b = 0x2D then rest else b :: rest)
      match n with
      | .integer n => return (.integer n, rest)
      | .real x => return (.real x, rest)
    else if b = 0x5B then
      match depth with
      | 0 => .error .malformed
      | depth + 1 => do
        let (items, rest) ← itemsFrom (readValue depth) [] true (rest.length + 1) rest
        return (.array items, rest)
    else if b = 0x7B then
      match depth with
      | 0 => .error .malformed
      | depth + 1 => do
        let member entries key bs := do
          let (_, bs) ← colon bs
          let (v, rest) ← readValue depth bs
          return (Keyed.insert key v entries, rest)
        let (entries, rest) ← membersFrom member [] true (rest.length + 1) rest
        let (_, rest) ← closeObject rest
        return (.object entries, rest)
    else .error .malformed

/-! ## Whole texts -/

/-- Reads a text that holds one value and blanks around it. -/
def Reader.run {α : Type} (reader : Reader α) (bs : Octets) : Except Failure α := do
  let (v, rest) ← reader bs
  if skipBlanks rest = [] then return v else .error .malformed

def parse (s : String) : Except Failure Json :=
  Reader.run (readValue maxDepth) (Utf8.encode s)

end PeekLock.Json
