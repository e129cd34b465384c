import PeekLock.Json.Reader

/-! # Records as JSON

A record travels as an object with named members or as an array of its fields in order.
A reader gathers the fields into a partly filled state.  In an object, unknown members
are ignored, a member given twice is refused where its key stands for the second time, and missing
fields are reported in the order of declaration once the object ends.
-/

namespace PeekLock.Json

/-- How one field is read into the state gathered so far. -/
structure Field (σ : Type) where
  name : String
  /-- Reads the field's value, at a depth, into the state. -/
  read : Nat → σ → Reader σ
  /-- Whether the state already has the field. -/
  given : σ → Bool

/-- How a record is read. -/
structure Record (σ α : Type) where
  name : String
  fields : List (Field σ)
  empty : σ
  /-- Whether fields may be missing. -/
  lenient : Bool
  /-- The record, or the name of the first missing field. -/
  finish : σ → Except String α

namespace Record

variable {σ α : Type} (r : Record σ α)

def expected : String :=
  s!"struct {r.name}"

def tooShort (count : Nat) : Failure :=
  let elements := if r.fields.length = 1 then "1 element" else s!"{r.fields.length} elements"
  .data s!"invalid length {count}, expected {r.expected} with {elements}"

def finished (state : σ) : Except Failure α :=
  match r.finish state with
  | .ok v => .ok v
  | .error missing => .error (.data s!"missing field `{missing}`")

def member (depth : Nat) (state : σ) (key : String) : Reader σ := fun bs =>
  match r.fields.find? (·.name = key) with
  | none => do
    let (_, bs) ← colon bs
    let (_, rest) ← readIgnored bs
    return (state, rest)
  | some field =>
    if field.given state then
      .error (.data s!"duplicate field `{key}`")
    else do
      let (_, bs) ← colon bs
      field.read depth state bs

def fieldsInOrder (depth : Nat) (count : Nat) (state : σ) :
    List (Field σ) → Octets → Except Failure (σ × Octets)
  | [], bs => .ok (state, bs)
  | field :: fields, bs => do
    match ← nextItem (count = 0) bs with
    | none => if r.lenient then return (state, bs) else .error (r.tooShort count)
    | some bs =>
      let (state, rest) ← field.read depth state bs
      fieldsInOrder depth (count + 1) state fields rest

def read (depth : Nat) : Reader α := fun bs =>
  match skipBlanks bs with
  | 0x7B :: rest =>
    match depth with
    | 0 => .error .malformed
    | depth + 1 => do
      let (state, rest) ← membersFrom (r.member depth) r.empty true (rest.length + 1) rest
      let v ← r.finished state
      let (_, rest) ← closeObject rest
      return (v, rest)
  | 0x5B :: rest =>
    match depth with
    | 0 => .error .malformed
    | depth + 1 => do
      let (state, rest) ← r.fieldsInOrder depth 0 r.empty r.fields rest
      let v ← r.finished state
      let (_, rest) ← closeArray rest
      return (v, rest)
  | bs => mismatch r.expected bs

def parse (s : String) : Except Failure α :=
  Reader.run (r.read maxDepth) (Utf8.encode s)

end Record

end PeekLock.Json
