import PeekLock.Error
import PeekLock.Json.Reader

/-! # Queue names

A name is made of segments of letters, digits, underscores and dots, with single
hyphens between them, up to 260 octets in all.  `QueueName.parse` checks the rules one after the
other: length, characters, hyphens.  A name that is read from stored data is taken as it
stands.
-/

namespace PeekLock

/-- The name of a queue. -/
structure QueueName where
  text : String
deriving DecidableEq, Repr

namespace QueueName

def maxOctets : Nat := 260

/-- A letter or digit of ASCII. -/
def isAlphanumeric (c : Char) : Bool :=
  ('a' ≤ c && c ≤ 'z') || ('A' ≤ c && c ≤ 'Z') || ('0' ≤ c && c ≤ '9')

def isSegmentChar (c : Char) : Bool :=
  isAlphanumeric c || c = '_' || c = '.'

def isNameChar (c : Char) : Bool :=
  isSegmentChar c || c = '-'

def hasDoubleHyphen : List Char → Bool
  | '-' :: '-' :: _ => true
  | _ :: rest => hasDoubleHyphen rest
  | [] => false

/-- A hyphen at an end or next to another. -/
def hasMisplacedHyphen (cs : List Char) : Bool :=
  cs.head? = some '-' || cs.getLast? = some '-' || hasDoubleHyphen cs

def fieldName : String := "queue_name"

def parse (s : String) : Except ValidationError QueueName :=
  let cs := s.toList
  if s.utf8ByteSize = 0 ∨ maxOctets < s.utf8ByteSize then
    .error (.outOfRange fieldName "must be 1-260 characters")
  else if !cs.all isNameChar then
    .error (.invalidFormat fieldName
      "only ASCII alphanumeric, hyphens, underscores and dots allowed")
  else if hasMisplacedHyphen cs then
    .error (.invalidFormat fieldName "no leading/trailing hyphens or consecutive hyphens")
  else
    .ok ⟨s⟩

def display (name : QueueName) : String :=
  name.text

/-! ## Stored names -/

/-- The name as a JSON value. -/
def toValue (name : QueueName) : Json :=
  .text name.text

/-- The name in stored data, which is taken as it stands. -/
def ofJson (s : String) : Except Json.Failure QueueName := do
  let text ← Json.Reader.run Json.readText (Utf8.encode s)
  return ⟨text⟩

/-! ## The grammar of names -/

/-- Segments of at least one character with single hyphens between them. -/
inductive Segments : List Char → Prop where
  | last {segment : List Char} :
      segment ≠ [] → (∀ c ∈ segment, isSegmentChar c) → Segments segment
  | more {segment rest : List Char} :
      segment ≠ [] → (∀ c ∈ segment, isSegmentChar c) → Segments rest →
      Segments (segment ++ '-' :: rest)

def IsWellFormed (s : String) : Prop :=
  1 ≤ s.utf8ByteSize ∧ s.utf8ByteSize ≤ maxOctets ∧ Segments s.toList

end QueueName

end PeekLock
