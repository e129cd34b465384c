import PeekLock.Json.Record

/-! # Shapes of JSON payloads

The types that a payload can be asked for.  What fits a shape is given back as a value, so
that two answers of different types can be held side by side.
-/

namespace PeekLock.Json

/-- A type of payload. -/
inductive Shape where
  | any
  | bool
  /-- Unsigned, of so many bits. -/
  | unsigned (bits : Nat)
  /-- Signed, of 64 bits. -/
  | signed
  | text
  /-- A sequence of unsigned numbers of 32 bits. -/
  | sequence
  /-- An unsigned number of 32 bits, or null. -/
  | optional
  /-- Unsigned numbers of 32 bits under free keys. -/
  | map
  /-- A record of a signed number `zeta` and a text `alpha`. -/
  | pair
  /-- Null. -/
  | unit
deriving DecidableEq, Repr

namespace Shape

/-- The fields of a pair that have been read. -/
structure PairParts where
  zeta : Option Int := none
  alpha : Option String := none

def pairRecord : Record PairParts (Int × String) where
  name := "Pair"
  lenient := false
  empty := {}
  finish
    | ⟨some z, some a⟩ => .ok (z, a)
    | ⟨none, _⟩ => .error "zeta"
    | ⟨_, none⟩ => .error "alpha"
  fields := [
    { name := "zeta"
      given := (·.zeta.isSome)
      read := fun _ p bs => do
        let (v, rest) ← readSigned bs
        return ({ p with zeta := some v }, rest) },
    { name := "alpha"
      given := (·.alpha.isSome)
      read := fun _ p bs => do
        let (v, rest) ← readText bs
        return ({ p with alpha := some v }, rest) }]

/-- Reads by a reader and turns what it gives into a value. -/
def through {α : Type} (reader : Reader α) (toJson : α → Json) : Reader Json := fun bs => do
  let (v, rest) ← reader bs
  return (toJson v, rest)

def reader : Shape → Reader Json
  | .any => readValue maxDepth
  | .bool => through readBool .bool
  | .unsigned bits => through (readUnsigned bits) fun n => .integer n
  | .signed => through readSigned .integer
  | .text => through readText .text
  | .sequence =>
    through (readArray maxDepth fun _ => readUnsigned 32) fun ns =>
      .array (ns.map fun (n : Nat) => .integer n)
  | .optional =>
    through (readOption (readUnsigned 32)) fun
      | some n => .integer n
      | none => .null
  | .map =>
    through (readMap maxDepth fun _ => readUnsigned 32) fun entries =>
      .object (entries.map fun (key, (n : Nat)) => (key, .integer n))
  | .pair =>
    through (pairRecord.read maxDepth) fun (z, a) =>
      .object [("alpha", .text a), ("zeta", .integer z)]
  | .unit => through readNull fun _ => .null

end Shape

end PeekLock.Json
