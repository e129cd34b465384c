import PeekLock.Number.Limits
import PeekLock.Pattern.Reader
import PeekLock.Text.Blank
import PeekLock.Text.Letter

/-! # Log filters

What may stand for the level of the log: directives with commas between them, each a level, the
name of a part of the program, or a part with a span, its fields and a level of its own.  Only
whether a text is a filter is told here.

White space around a directive is passed over, but the parts of a directive are then cut at the
places that they would have without the white space in front: a directive behind white space loses
characters at the ends of its parts, and a cut inside a character breaks the reader off.
-/

namespace PeekLock.LogFilter

/-- Why a text is no filter. -/
inductive Fault where
  | refused
  /-- A character has been cut in two. -/
  | broken
deriving DecidableEq, Repr

/-! ## Levels and values -/

def levelNames : List String :=
  ["error", "warn", "info", "debug", "trace", "off"]

/-- Whether a text is a level: a name, or a number up to five. -/
def isLevel (cs : List Char) : Bool :=
  let digits := match cs with
    | '+' :: rest => rest
    | _ => cs
  let significant := digits.dropWhile (· = '0')
  let isNumber := !digits.isEmpty && digits.all Char.isDigit &&
    (significant.isEmpty || (significant.length = 1 && significant.all (· ≤ '5')))
  isNumber || levelNames.contains (String.ofList (cs.map Char.toLower))

def isDigits (cs : List Char) : Bool :=
  !cs.isEmpty && cs.all Char.isDigit

/-- Characters behind a sign, if there is one. -/
def unsigned : List Char → List Char
  | '+' :: rest => rest
  | '-' :: rest => rest
  | cs => cs

/-- Whether a text is a number.  One side of its point may be empty, and words stand for the number
    without bound and for what is no number. -/
def isNumber (cs : List Char) : Bool :=
  let word := (unsigned cs).map Char.toLower
  let (mantissa, mark) := word.span (· ≠ 'e')
  let digits := mantissa.filter (· ≠ '.')
  ["inf", "infinity", "nan"].contains (String.ofList word) ||
    (isDigits digits && mantissa.length ≤ digits.length + 1 &&
      (mark.isEmpty || isDigits (unsigned (mark.drop 1))))

/-- Whether a text may stand for the value of a field: a number or a pattern. -/
def isValue (cs : List Char) : Bool :=
  isNumber cs || (Pattern.ofChars? cs).any (·.isUsable)

/-- Whether a text is a field: a name, and perhaps a value up to a second equals sign. -/
def isField (cs : List Char) : Bool :=
  match (cs.dropWhile (· ≠ '=')).drop 1 with
  | [] => !cs.isEmpty
  | rest => isValue (rest.takeWhile (· ≠ '='))

/-! ## Cutting -/

/-- The characters behind so many bytes. -/
def dropBytes : List Char → Nat → Except Fault (List Char)
  | cs, 0 => .ok cs
  | [], _ => .error .broken
  | c :: rest, n => if n < c.utf8Size then .error .broken else dropBytes rest (n - c.utf8Size)

def takeBytes : List Char → Nat → Except Fault (List Char)
  | _, 0 => .ok []
  | [], _ => .error .broken
  | c :: rest, n =>
    if n < c.utf8Size then .error .broken
    else (takeBytes rest (n - c.utf8Size)).map (c :: ·)

/-- The characters between two places, which are counted in bytes. -/
def cut (cs : List Char) (first last : Nat) : Except Fault (List Char) := do
  let rest ← dropBytes cs first
  takeBytes rest (last - first)

/-! ## Directives -/

/-- Where the reader of a directive stands, with the place where the part began that it reads. -/
inductive State where
  | start
  /-- In a level or the name of a part. -/
  | word (first : Nat)
  | span (first : Nat)
  | field (first : Nat)
  | behindFields
  | behindSpan
  /-- In the level of a part. -/
  | level (first : Nat)
deriving DecidableEq, Repr

def isFirst (c : Char) : Bool :=
  c = '-' || c = ':' || c = '_' || isAlphanumeric c

/-- One character of a directive, which stands at a place. -/
def State.next (text : List Char) (place : Nat) (c : Char) : State → Except Fault State
  | .start =>
    if c = '[' then .ok (.span (place + 1))
    else if isFirst c then .ok (.word place)
    else .error .refused
  | .word first => do
    if c = '=' then
      let _ ← cut text first place
      return .level (place + 1)
    else if c = '[' then
      let _ ← cut text first place
      return .span (place + 1)
    else return .word first
  | .span first => do
    if c = ']' then
      let _ ← cut text first place
      return .behindSpan
    else if c = '\x7b' then
      let _ ← cut text first place
      return .field (place + 1)
    else return .span first
  | .field first => do
    if c = '\x7d' then
      let field ← cut text first place
      if isField field then return .behindFields else .error .refused
    else return .field first
  | .behindFields => if c = ']' then .ok .behindSpan else .error .refused
  | .behindSpan => if c = '=' then .ok (.level (place + 1)) else .error .refused
  | .level first => .ok (.level first)

def State.read (text : List Char) (place : Nat) (state : State) : List Char → Except Fault State
  | [] => .ok state
  | c :: rest => do
    let state ← state.next text place c
    state.read text (place + c.utf8Size) rest

def State.finish (text : List Char) : State → Except Fault Unit
  | .word first => (dropBytes text first).map fun _ => ()
  | .level first => do
    let level ← dropBytes text first
    if level.isEmpty ∨ isLevel level then return () else .error .refused
  | .behindSpan => .ok ()
  | .start | .span _ | .field _ | .behindFields => .error .refused

/-- Characters without white space at both ends. -/
def trim (cs : List Char) : List Char :=
  (trimStart (trimStart cs).reverse).reverse

def checkDirective (cs : List Char) : Except Fault Unit := do
  let state ← State.start.read cs 0 (trim cs)
  state.finish cs

/-! ## Filters -/

def split (current : List Char) : List Char → List (List Char)
  | [] => [current.reverse]
  | ',' :: rest => current.reverse :: split [] rest
  | c :: rest => split (c :: current) rest

def check (s : String) : Except Fault Unit :=
  if s.isEmpty then .ok () else (split [] s.toList).forM checkDirective

end PeekLock.LogFilter
