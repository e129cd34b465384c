import PeekLock.Number.Limits
import PeekLock.Number.Shortest
import PeekLock.Text.Blank
import PeekLock.Time.Timestamp

/-! # Written timestamps

Two ways to write an instant and one to read both.  The wire form is RFC 3339 with the
shortest exact fraction; the display form ends in ` UTC` and has three places.  The
reader takes a relaxed form of RFC 3339: blanks between the parts, single-digit fields, a
space for the `T`, and any number of digits in a fraction.
-/

namespace PeekLock

/-- Why a text is no timestamp. -/
inductive TimeError where
  /-- A field, or the instant as a whole, is outside its range. -/
  | outOfRange
  /-- The offset leads to an instant that cannot be told. -/
  | impossible
  /-- A character that cannot stand where it is. -/
  | invalid
  /-- The text ends before the timestamp does. -/
  | tooShort
  /-- The text goes on behind the timestamp. -/
  | tooLong
deriving DecidableEq, Repr

def TimeError.message : TimeError → String
  | .outOfRange => "input is out of range"
  | .impossible => "no possible date and time matching input"
  | .invalid => "input contains invalid characters"
  | .tooShort => "premature end of input"
  | .tooLong => "trailing input"

namespace Rfc3339

/-! ## Writing -/

/-- A number with zeros in front up to a width. -/
def padded (width n : Nat) : List Char :=
  let ds := digitChars n
  List.replicate (width - ds.length) '0' ++ ds

/-- A year: four digits, and a sign in front of it outside 0 to 9999. -/
def yearChars (year : Int) : List Char :=
  if 0 ≤ year ∧ year ≤ 9999 then padded 4 year.toNat
  else (if year < 0 then '-' else '+') :: padded 4 year.natAbs

/-- Date and time of day to the second, with a separator between them. -/
def dateTimeChars (separator : Char) (t : Timestamp) : List Char :=
  let d := t.date
  yearChars d.year ++ '-' :: padded 2 d.month ++ '-' :: padded 2 d.day ++
    separator :: padded 2 t.hour ++ ':' :: padded 2 t.minute ++ ':' :: padded 2 t.second

/-- The shortest exact fraction of 0, 3, 6 or 9 digits. -/
def fractionChars (nanos : Nat) : List Char :=
  if nanos = 0 then []
  else if nanos % 1000000 = 0 then '.' :: padded 3 (nanos / 1000000)
  else if nanos % 1000 = 0 then '.' :: padded 6 (nanos / 1000)
  else '.' :: padded 9 nanos

def wireChars (t : Timestamp) : List Char :=
  dateTimeChars 'T' t ++ fractionChars t.subsecond ++ ['Z']

def displayChars (t : Timestamp) : List Char :=
  dateTimeChars ' ' t ++ '.' :: padded 3 (t.subsecond / 1000000) ++ [' ', 'U', 'T', 'C']

/-! ## Reading

Each part gives what it read with the characters after it. -/

abbrev Scan (α : Type) := List Char → Except TimeError (α × List Char)

def digit? (c : Char) : Option Nat :=
  if '0' ≤ c ∧ c ≤ '9' then some (c.toNat - '0'.toNat) else none

/-- Digits at the front, at most so many, as a number behind `n`. -/
def digitsFrom (n : Nat) : (most : Nat) → List Char → Nat × List Char
  | 0, cs => (n, cs)
  | _ + 1, [] => (n, [])
  | most + 1, c :: rest =>
    match digit? c with
    | some d => digitsFrom (n * 10 + d) most rest
    | none => (n, c :: rest)

/-- A number of one digit up to so many. -/
def number (most : Nat) : Scan Nat := fun cs =>
  match cs with
  | [] => .error .tooShort
  | c :: _ =>
    match digit? c with
    | none => .error .invalid
    | some _ => .ok (digitsFrom 0 most cs)

/-- A number of at most two digits between two bounds, blanks in front. -/
def field (lowest highest : Nat) : Scan Nat := fun cs => do
  let (n, rest) ← number 2 (trimStart cs)
  if lowest ≤ n ∧ n ≤ highest then return (n, rest) else .error .outOfRange

def literal (expected : Char) : Scan Unit := fun cs =>
  match trimStart cs with
  | [] => .error .tooShort
  | c :: rest => if c = expected then .ok ((), rest) else .error .invalid

/-- A year: four digits at most, or any number of them behind a sign. -/
def year : Scan Int := fun cs => do
  let signed (sign : Int) (cs : List Char) : Except TimeError (Int × List Char) := do
    let (n, rest) ← number cs.length cs
    if minSigned32 ≤ sign * n ∧ sign * n ≤ maxSigned32 then return (sign * n, rest)
    else .error .outOfRange
  match trimStart cs with
  | '-' :: rest => signed (-1) rest
  | '+' :: rest => signed 1 rest
  | cs => do
    let (n, rest) ← number 4 cs
    return (n, rest)

/-- The fraction of a second in nanoseconds: the first nine digits count. -/
def fraction : Scan Nat
  | '.' :: cs => do
    let (n, rest) ← number 9 cs
    let taken := cs.length - rest.length
    return (n * Nat.pow 10 (9 - taken), rest.dropWhile fun c => (digit? c).isSome)
  | cs => .ok (0, cs)

/-- Two digits, as they stand in an offset: the text ends too early if fewer than two
    octets are left. -/
def twoDigits : Scan (Nat × Nat)
  | [] => .error .tooShort
  | [c] => if c.toNat < 0x80 then .error .tooShort else .error .invalid
  | a :: b :: rest =>
    match digit? a, digit? b with
    | some a, some b => .ok ((a, b), rest)
    | _, _ => .error .invalid

/-- The offset from universal time in seconds: `UTC`, `Z`, or a sign with hours and
    minutes. -/
def offset : Scan Int := fun cs =>
  match cs with
  | [] => .error .tooShort
  | c :: rest =>
    let word := (cs.take 3).map Char.toUpper
    if word = ['U', 'T', 'C'] then .ok (0, cs.drop 3)
    else if c = 'Z' ∨ c = 'z' then .ok (0, rest)
    else if c = '+' ∨ c = '-' ∨ c = '\u2212' then do
      let ((h, h'), rest) ← twoDigits rest
      let rest := rest.dropWhile fun c => c = ':' || isWhiteSpace c
      let ((m, m'), rest) ← twoDigits rest
      if 6 ≤ m then .error .outOfRange
      else
        let seconds : Int := ((h * 10 + h') * 60 + (m * 10 + m')) * 60
        return (if c = '+' then seconds else -seconds, rest)
    else .error .invalid

/-- The fields of a written timestamp. -/
structure Fields where
  date : Date
  hour : Nat
  minute : Nat
  second : Nat
  nanos : Nat
  offset : Int
deriving DecidableEq, Repr

def fields : Scan Fields := fun cs => do
  let (year, cs) ← year cs
  let (_, cs) ← literal '-' cs
  let (month, cs) ← field 1 12 cs
  let (_, cs) ← literal '-' cs
  let (day, cs) ← field 1 31 cs
  let cs ←
    match cs with
    | [] => .error .tooShort
    | c :: rest => if c = 'T' ∨ c = 't' ∨ c = ' ' then pure rest else .error .invalid
  let (hour, cs) ← field 0 23 cs
  let (_, cs) ← literal ':' cs
  let (minute, cs) ← field 0 59 cs
  let (_, cs) ← literal ':' cs
  let (second, cs) ← field 0 60 cs
  let (nanos, cs) ← fraction cs
  let (offset, cs) ← offset (trimStart cs)
  return (⟨⟨year, month, day⟩, hour, minute, second, nanos, offset⟩, cs)

def YearInRange (year : Int) : Prop :=
  -262143 ≤ year ∧ year ≤ 262142

instance (year : Int) : Decidable (YearInRange year) :=
  inferInstanceAs (Decidable (_ ∧ _))

/-- The instant of the fields: the sixtieth second is the leap second behind the
    fifty-ninth. -/
def Fields.instant (f : Fields) : Except TimeError Timestamp :=
  if ¬ (YearInRange f.date.year ∧ f.date.IsValid) then .error .outOfRange
  else if ¬ (-86400 < f.offset ∧ f.offset < 86400) then .error .outOfRange
  else
    let (second, nanos) :=
      if f.second = 60 then (59, f.nanos + Timestamp.perSecond) else (f.second, f.nanos)
    let seconds := f.date.toDays * 86400 + (f.hour * 3600 + f.minute * 60 + second : Nat) - f.offset
    match Timestamp.ofParts? seconds nanos with
    | some t => .ok t
    | none => .error .impossible

/-- The instant that characters tell, with nothing but blanks behind it. -/
def parseChars (cs : List Char) : Except TimeError Timestamp := do
  let (f, rest) ← fields cs
  if trimStart rest = [] then f.instant else .error .tooLong

end Rfc3339

namespace Timestamp

def toWire (t : Timestamp) : String :=
  String.ofList (Rfc3339.wireChars t)

def display (t : Timestamp) : String :=
  String.ofList (Rfc3339.displayChars t)

def parse (s : String) : Except TimeError Timestamp :=
  Rfc3339.parseChars s.toList

end Timestamp

end PeekLock
