import PeekLock.Number.Limits
import PeekLock.Settings
import PeekLock.Text.Quoted

/-! # Layers of settings

Settings come from several places, one over the other.  A place gives values under keys, and what
a value is for depends on who asks: every scalar is a text, and nearly every scalar is a number.
A key is a path, so that a place may give a part of a value; a value made of parts is a
table or a list and of no use for a setting.
-/

namespace PeekLock

/-- A value as some place gives it. -/
inductive SettingValue where
  | null
  | bool (b : Bool)
  | integer (n : Int)
  | real (x : Float)
  | text (s : String)
  /-- A value with named parts. -/
  | table
  /-- A value with numbered parts. -/
  | list
deriving Inhabited

namespace SettingValue

def described : SettingValue → String
  | .null => "unit value"
  | .bool b => if b then "boolean `true`" else "boolean `false`"
  | .integer n => "64-bit integer `" ++ toString n ++ "`"
  | .real x => "floating point `" ++ plainText x ++ "`"
  | .text s => "string " ++ Quoted.quote s
  | .table => "map"
  | .list => "sequence"

/-- A value as a text, or what was expected. -/
def toText : SettingValue → Except String String
  | .bool b => .ok (if b then "true" else "false")
  | .integer n => .ok (toString n)
  | .real x => .ok (plainText x)
  | .text s => .ok s
  | .null | .table | .list => .error "a string"

def limit : Nat := maxUnsigned64

def lower (cs : List Char) : List Char :=
  cs.map Char.toLower

def decimal? (cs : List Char) : Option Nat :=
  cs.foldlM (fun n c =>
    if '0' ≤ c ∧ c ≤ '9' then some (n * 10 + (c.toNat - '0'.toNat)) else none) 0

/-- A written number: digits, and perhaps a plus in front. -/
def number? (cs : List Char) : Option Nat := do
  let ds := match cs with
    | '+' :: rest => rest
    | _ => cs
  if ds.isEmpty then none
  else
    let n ← decimal? ds
    if n ≤ limit then return n else none

/-- The number of a text: a word for yes or no, or a written number. -/
def textNumber? (s : String) : Option Nat :=
  let word := String.ofList (lower s.toList)
  if word = "true" ∨ word = "on" ∨ word = "yes" then some 1
  else if word = "false" ∨ word = "off" ∨ word = "no" then some 0
  else number? s.toList

/-- A floating-point number rounded to the nearest number that a setting can have, a half away
    from zero. -/
def rounded (x : Float) : Nat :=
  x.round.toUInt64.toNat

/-- A value as a number, or what was expected. -/
def toNumber : SettingValue → Except String Nat
  | .bool b => .ok (if b then 1 else 0)
  | .integer n =>
    if 0 ≤ n then .ok n.toNat else .error "an unsigned 64 bit or less integer"
  | .real x => .ok (rounded x)
  | .text s =>
    match textNumber? s with
    | some n => .ok n
    | none => .error "an integer"
  | .null | .table | .list => .error "an integer"

end SettingValue

/-- A value with the place that it comes from, if that is known. -/
structure Setting where
  origin : Option String
  value : SettingValue
deriving Inhabited

/-- A part of a key's path. -/
inductive PathStep where
  | name
  | index
deriving DecidableEq, Repr

/-- Where a key leads: to a root, and from there perhaps to one of its parts. -/
structure KeyPath where
  root : String
  /-- The first step from the root. -/
  step : Option PathStep
deriving DecidableEq, Repr

namespace KeyPath

def isNameChar (c : Char) : Bool :=
  QueueName.isAlphanumeric c || c = '_' || c = '-'

/-- A number in brackets behind the opening one, with blanks around it, and what follows.  It has a
    minus or no sign, and 64 bits hold it. -/
def index? (cs : List Char) : Option (List Char) :=
  let isBlank (c : Char) : Bool := c = ' ' || c = '\t'
  let cs := cs.dropWhile isBlank
  let (isNegative, digits) := match cs with
    | '-' :: digits => (true, digits)
    | _ => (false, cs)
  let (index, rest) := digits.span Char.isDigit
  let fits := (SettingValue.decimal? index).any fun n =>
    n ≤ maxSigned64 + isNegative.toNat
  match rest.dropWhile isBlank with
  | ']' :: rest => if !index.isEmpty && fits then some rest else none
  | _ => none

/-- The steps behind a root: a point with a name, or a number in brackets. -/
def steps? : (rounds : Nat) → List Char → Option (List PathStep)
  | 0, _ => none
  | rounds + 1, cs =>
    match cs with
    | [] => some []
    | '.' :: rest =>
      let (name, rest) := rest.span isNameChar
      if name.isEmpty then none else (steps? rounds rest).map (.name :: ·)
    | '[' :: rest => (index? rest).bind fun rest => (steps? rounds rest).map (.index :: ·)
    | _ => none

/-- The path of a key.  A key that is no path is a root as it stands. -/
def parse (key : String) : KeyPath :=
  let cs := key.toList
  let (root, rest) := cs.span isNameChar
  match root, steps? (rest.length + 1) rest with
  | _ :: _, some steps => ⟨String.ofList root, steps.head?⟩
  | _, _ => ⟨key, none⟩

end KeyPath

abbrev Gathered := List (String × Setting)

namespace Gathered

/-- A value with named parts; where it comes from is not known. -/
def tableSetting : Setting := ⟨none, .table⟩

/-- Gives a key its value over what was there before. -/
def assign (g : Gathered) (origin : String) (key : String) (v : SettingValue) : Gathered :=
  let path := KeyPath.parse key
  let setting :=
    match path.step, v with
    | none, .table => tableSetting
    | none, v => ⟨some origin, v⟩
    | some .name, _ => tableSetting
    | some .index, _ =>
      match Keyed.get? path.root g with
      | some ⟨origin, .list⟩ => ⟨origin, .list⟩
      | _ => ⟨none, .list⟩
  Keyed.insert path.root setting g

def add (g : Gathered) (origin : String) (layer : List (String × SettingValue)) : Gathered :=
  layer.foldl (fun g (key, v) => g.assign origin key v) g

/-- The report on a value that does not fit. -/
def report (key : String) (s : Setting) (expected : String) : ConfigurationError :=
  let place := match s.origin with
    | some origin => " in " ++ origin
    | none => ""
  .parsing ("invalid type: " ++ s.value.described ++ ", expected " ++ expected ++
    " for key `" ++ key ++ "`" ++ place)

/-- The value of a key, coerced, or a default if there is none. -/
def read {α : Type} (g : Gathered) (key : String) (coerce : SettingValue → Except String α)
    (default : α) : Except ConfigurationError α :=
  match Keyed.get? key g with
  | none => .ok default
  | some s =>
    match coerce s.value with
    | .ok v => .ok v
    | .error expected => .error (report key s expected)

def settings (g : Gathered) : Except ConfigurationError Settings := do
  let name ← g.read Settings.nameKey SettingValue.toText Settings.default.name
  let poll ← g.read Settings.pollKey SettingValue.toNumber Settings.default.listenPollIntervalMs
  let receive ←
    g.read Settings.receiveKey SettingValue.toNumber Settings.default.listenReceiveTimeoutMs
  return ⟨name, poll, receive⟩

end Gathered

end PeekLock
