import PeekLock.Json.Failure
import PeekLock.Json.Value

/-! # Documents to be encoded

What a sender hands over to be written as JSON: like a value, but with the fields of a record in
the order of their declaration, with map keys that may be no text, and with parts
that refuse to be written.  A document is written directly, in its own order, or made a
value first, whose objects are in key order.
-/

namespace PeekLock

/-- Something that may have a JSON text. -/
inductive Document where
  | null
  | bool (b : Bool)
  | integer (n : Int)
  | real (x : Float)
  | text (s : String)
  | list (items : List Document)
  /-- Fields in the order of declaration. -/
  | record (fields : List (String × Document))
  /-- Entries whose keys are texts, or else cannot be written. -/
  | map (entries : List (Option String × Document))
  /-- A part that refuses to be written. -/
  | refused (reason : String)
deriving Inhabited

namespace Document

/-- The refusal of a key that is no text. -/
def keyFailure : Json.Failure :=
  .unencodable "key must be a string"

mutual

def chars : Document → Except Json.Failure (List Char)
  | .null => .ok (Json.chars .null)
  | .bool b => .ok (Json.chars (.bool b))
  | .integer n => .ok (Json.chars (.integer n))
  | .real x => .ok (Json.chars (.real x))
  | .text s => .ok (Json.quoteChars s)
  | .list items => do
    let parts ← itemsChars items
    return '[' :: Json.joinChars [','] parts ++ [']']
  | .record fields => do
    let parts ← fieldsChars fields
    return '\x7b' :: Json.joinChars [','] parts ++ ['\x7d']
  | .map entries => do
    let parts ← entriesChars entries
    return '\x7b' :: Json.joinChars [','] parts ++ ['\x7d']
  | .refused reason => .error (.data reason)

def itemsChars : List Document → Except Json.Failure (List (List Char))
  | [] => .ok []
  | item :: rest => do
    let head ← chars item
    let tail ← itemsChars rest
    return head :: tail

def fieldsChars : List (String × Document) → Except Json.Failure (List (List Char))
  | [] => .ok []
  | (name, value) :: rest => do
    let head ← chars value
    let tail ← fieldsChars rest
    return (Json.quoteChars name ++ ':' :: head) :: tail

def entriesChars : List (Option String × Document) → Except Json.Failure (List (List Char))
  | [] => .ok []
  | (none, _) :: _ => .error keyFailure
  | (some key, value) :: rest => do
    let head ← chars value
    let tail ← entriesChars rest
    return (Json.quoteChars key ++ ':' :: head) :: tail

end

mutual

/-- The value of a document.  A number that is none becomes null. -/
def value : Document → Except Json.Failure Json
  | .null => .ok .null
  | .bool b => .ok (.bool b)
  | .integer n => .ok (.integer n)
  | .real x => .ok (if x.isNaN || x.isInf then .null else .real x)
  | .text s => .ok (.text s)
  | .list items => do
    let items ← itemsValue items
    return .array items
  | .record fields => do
    let members ← fieldsValue fields
    return .object (Keyed.ofList members)
  | .map entries => do
    let members ← entriesValue entries
    return .object (Keyed.ofList members)
  | .refused reason => .error (.data reason)

def itemsValue : List Document → Except Json.Failure (List Json)
  | [] => .ok []
  | item :: rest => do
    let head ← value item
    let tail ← itemsValue rest
    return head :: tail

def fieldsValue : List (String × Document) → Except Json.Failure (List (String × Json))
  | [] => .ok []
  | (name, v) :: rest => do
    let head ← value v
    let tail ← fieldsValue rest
    return (name, head) :: tail

def entriesValue : List (Option String × Document) → Except Json.Failure (List (String × Json))
  | [] => .ok []
  | (none, _) :: _ => .error keyFailure
  | (some key, v) :: rest => do
    let head ← value v
    let tail ← entriesValue rest
    return (key, head) :: tail

end

mutual

/-- A value as a document. -/
def ofValue : Json → Document
  | .null => .null
  | .bool b => .bool b
  | .integer n => .integer n
  | .real x => .real x
  | .text s => .text s
  | .array items => .list (ofItems items)
  | .object members => .record (ofMembers members)

/-- The items of an array as documents. -/
def ofItems : List Json → List Document
  | [] => []
  | item :: rest => ofValue item :: ofItems rest

/-- The members of an object as fields. -/
def ofMembers : List (String × Json) → List (String × Document)
  | [] => []
  | (key, v) :: rest => (key, ofValue v) :: ofMembers rest

end

def encode (d : Document) : Except Json.Failure Octets := do
  let cs ← d.chars
  return Utf8.encodeChars cs

end Document

end PeekLock
