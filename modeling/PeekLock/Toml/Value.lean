import PeekLock.Number.Limits
import PeekLock.Number.Shortest
import PeekLock.Time.Calendar

/-! # TOML values

The values of a TOML text.  Tables remember how they came to be, because that decides what
may still be added to them: a table with a header of its own is opened once, one that
only stands in the path of others can still get its header, one made by dotted keys can only be
extended by dotted keys, and an inline table is closed.
-/

namespace PeekLock.Toml

/-- How a table came to be. -/
inductive TableOrigin where
  | header
  /-- By standing in the path of another table's header. -/
  | path
  /-- By standing in a dotted key. -/
  | dotted
  | inline
deriving DecidableEq, Repr

/-- A value. -/
inductive Value where
  | text (s : String)
  | integer (n : Int)
  | real (x : Float)
  | bool (b : Bool)
  /-- A date, a time or both, in its normal form. -/
  | dateTime (s : String)
  | array (items : List Value)
  | table (origin : TableOrigin) (entries : List (String × Value))
  /-- The tables of an array that is made by headers, the last one first. -/
  | tables (items : List (List (String × Value)))
deriving Inhabited

abbrev Entries := List (String × Value)

namespace Entries

def find? (entries : Entries) (key : String) : Option Value :=
  entries.lookup key

def replace (entries : Entries) (key : String) (v : Value) : Entries :=
  entries.map fun (k, old) => if k = key then (k, v) else (k, old)

def assign (v : Value) : (path : List String) → Entries → Option Entries
  | [], _ => none
  | [key], entries =>
    match entries.find? key with
    | none => some (entries ++ [(key, v)])
    | some _ => none
  | key :: path, entries =>
    match entries.find? key with
    | none => do
      let inner ← assign v path []
      return entries ++ [(key, .table .dotted inner)]
    | some (.table .dotted inner) => do
      let inner ← assign v path inner
      return entries.replace key (.table .dotted inner)
    | some _ => none

/-- Goes down a path of headers and changes the table at its end by `f`, which is given nothing
    where there is no such table. -/
def change (f : Option Value → Option Value) : (path : List String) → Entries → Option Entries
  | [], _ => none
  | [key], entries =>
    match entries.find? key with
    | none => do
      let v ← f none
      return entries ++ [(key, v)]
    | some old => do
      let v ← f (some old)
      return entries.replace key v
  | key :: path, entries =>
    match entries.find? key with
    | none => do
      let inner ← change f path []
      return entries ++ [(key, .table .path inner)]
    | some (.table .inline _) => none
    | some (.table origin inner) => do
      let inner ← change f path inner
      return entries.replace key (.table origin inner)
    | some (.tables (last :: earlier)) => do
      let last ← change f path last
      return entries.replace key (.tables (last :: earlier))
    | some _ => none

def openTable (path : List String) (entries : Entries) : Option Entries :=
  entries.change (fun
    | none => some (.table .header [])
    | some (.table .path inner) => some (.table .header inner)
    | some _ => none) path

def addTable (path : List String) (entries : Entries) : Option Entries :=
  entries.change (fun
    | none => some (.tables [[]])
    | some (.tables items) => some (.tables ([] :: items))
    | some _ => none) path

/-- Gives a dotted key its value in the table that was opened last. -/
def assignUnder (header : List String) (path : List String) (v : Value) (entries : Entries) :
    Option Entries :=
  match header with
  | [] => entries.assign v path
  | _ =>
    entries.change (fun
      | some (.table origin inner) => do
        let inner ← assign v path inner
        return .table origin inner
      | some (.tables (last :: earlier)) => do
        let last ← assign v path last
        return .tables (last :: earlier)
      | _ => none) header

end Entries

/-! ## Numbers -/

/-- The value of a digit to a base up to sixteen. -/
def digit? (base : Nat) (c : Char) : Option Nat :=
  let n :=
    if '0' ≤ c ∧ c ≤ '9' then c.toNat - '0'.toNat
    else if 'a' ≤ c ∧ c ≤ 'f' then c.toNat - 'a'.toNat + 10
    else if 'A' ≤ c ∧ c ≤ 'F' then c.toNat - 'A'.toNat + 10
    else base
  if n < base then some n else none

/-- The value of digits, at least one, with single underscores between them. -/
def digits? (base : Nat) : List Char → Option Nat
  | [] => none
  | c :: rest => do
    let d ← digit? base c
    go d rest
where
  /-- More digits behind a number. -/
  go (n : Nat) : List Char → Option Nat
    | [] => some n
    | '_' :: c :: rest => do
      let d ← digit? base c
      go (n * base + d) rest
    | c :: rest => do
      let d ← digit? base c
      go (n * base + d) rest

/-- Decimal digits without a zero in front, but for zero itself. -/
def plainDigits? (cs : List Char) : Option Nat :=
  if cs.head? = some '0' ∧ 1 < cs.length then none else digits? 10 cs

/-- A sign at the front, and the characters after it. -/
def takeSign : List Char → Bool × List Char
  | '-' :: rest => (true, rest)
  | '+' :: rest => (false, rest)
  | cs => (false, cs)

/-- An integer that 64 bits hold. -/
def bounded? (n : Int) : Option Int :=
  if minSigned64 ≤ n ∧ n ≤ maxSigned64 then some n else none

/-- An integer: decimal with a sign, or to another base without. -/
def integer? (cs : List Char) : Option Int :=
  match cs with
  | '0' :: 'x' :: rest => do bounded? (← digits? 16 rest)
  | '0' :: 'o' :: rest => do bounded? (← digits? 8 rest)
  | '0' :: 'b' :: rest => do bounded? (← digits? 2 rest)
  | _ => do
    let (negative, ds) := takeSign cs
    let n ← plainDigits? ds
    bounded? (if negative then -(n : Int) else n)

/-- The digits of a fraction behind its point, and their number. -/
def fraction? (cs : List Char) : Option (Nat × Nat) := do
  let n ← digits? 10 cs
  return (n, (cs.filter (· ≠ '_')).length)

/-- An exponent behind its mark. -/
def exponent? (cs : List Char) : Option Int := do
  let (negative, ds) := takeSign cs
  let n ← digits? 10 ds
  return if negative then -(n : Int) else n

/-- The number `digits * 10 ^ exponent` with its sign, unless it is too large to be told from one
    without bound. -/
def scaled? (negative : Bool) (digits : Nat) (exponent : Int) : Option Float :=
  let x := realOfDecimal digits exponent
  if x.isInf then none else some (if negative then -x else x)

def real? (cs : List Char) : Option Float := do
  let (negative, body) := takeSign cs
  if body = ['i', 'n', 'f'] then
    return if negative then -(1.0 / 0.0) else 1.0 / 0.0
  else if body = ['n', 'a', 'n'] then
    return 0.0 / 0.0
  else
    let isMark (c : Char) : Bool := c = 'e' || c = 'E'
    let (mantissa, mark) := body.span fun c => !isMark c
    let (whole, point) := mantissa.span (· ≠ '.')
    let w ← plainDigits? whole
    let e ←
      match mark with
      | [] => some 0
      | _ :: rest => exponent? rest
    match point with
    | [] => if mark.isEmpty then none else scaled? negative w e
    | _ :: ds =>
      let (f, places) ← fraction? ds
      scaled? negative (w * Nat.pow 10 places + f) (e - places)

/-! ## Dates and times -/

def fixed? (count : Nat) (cs : List Char) : Option (Nat × List Char) :=
  let ds := cs.take count
  if ds.length = count ∧ ds.all Char.isDigit then do
    let n ← digits? 10 ds
    return (n, cs.drop count)
  else none

def date? (cs : List Char) : Option (List Char × List Char) := do
  let (year, rest) ← fixed? 4 cs
  let '-' :: rest := rest | none
  let (month, rest) ← fixed? 2 rest
  let '-' :: rest := rest | none
  let (day, rest) ← fixed? 2 rest
  if Date.IsValid ⟨year, month, day⟩ then return (cs.take 10, rest) else none

/-- A second at the front.  Of a fraction nine digits count, and zeros at its end are left out, but
    for one digit. -/
def seconds? (cs : List Char) : Option (List Char × List Char) := do
  let (second, rest) ← fixed? 2 cs
  if 60 < second then none
  else
    let written := cs.take 2
    match rest with
    | '.' :: rest =>
      let (ds, rest) := rest.span Char.isDigit
      if ds.isEmpty then none
      else
        let kept := ((ds.take 9).reverse.dropWhile (· = '0')).reverse
        return (written ++ '.' :: if kept.isEmpty then ['0'] else kept, rest)
    | _ => return (written, rest)

def time? (cs : List Char) : Option (List Char × List Char) := do
  let (hour, rest) ← fixed? 2 cs
  let ':' :: rest := rest | none
  let (minute, rest) ← fixed? 2 rest
  if 23 < hour ∨ 59 < minute then none
  else
    match rest with
    | ':' :: rest =>
      let (second, rest) ← seconds? rest
      return (cs.take 5 ++ ':' :: second, rest)
    | _ => return (cs.take 5, rest)

def offset? : List Char → Option (List Char)
  | ['Z'] | ['z'] => some ['Z']
  | c :: rest => do
    if c = '+' ∨ c = '-' then
      let (hour, rest') ← fixed? 2 rest
      let ':' :: rest' := rest' | none
      let (minute, rest') ← fixed? 2 rest'
      if 23 < hour ∨ 59 < minute ∨ rest' ≠ [] then none
      else return (if hour = 0 ∧ minute = 0 then '+' else c) :: rest
    else none
  | [] => none

/-- A date, a time, or both with an offset or without, in its normal form. -/
def dateTime? (cs : List Char) : Option String :=
  match date? cs with
  | some (day, []) => some (String.ofList day)
  | some (day, separator :: rest) =>
    if separator = 'T' ∨ separator = 't' ∨ separator = ' ' then do
      let (time, rest) ← time? rest
      let zone ← if rest.isEmpty then some [] else offset? rest
      return String.ofList (day ++ 'T' :: time ++ zone)
    else none
  | none => do
    let (time, rest) ← time? cs
    if rest.isEmpty then return String.ofList time else none

/-- A word that is no text: a truth value, a number, a date or a time. -/
def word? (cs : List Char) : Option Value :=
  if cs = ['t', 'r', 'u', 'e'] then some (.bool true)
  else if cs = ['f', 'a', 'l', 's', 'e'] then some (.bool false)
  else
    match integer? cs with
    | some n => some (.integer n)
    | none =>
      match dateTime? cs with
      | some s => some (.dateTime s)
      | none => (real? cs).map .real

end PeekLock.Toml
