import PeekLock.Yaml.Cursor
import PeekLock.Yaml.Scalar
import PeekLock.Yaml.Token

/-! # Names, tags and directives of YAML

A tag is a handle and a suffix; a directive in front of a document tells what a handle stands for.
-/

namespace PeekLock.Yaml.Tag

/-! ## Names -/

def isNameChar (c : Char) : Bool :=
  !isBlank c && c ≠ '\n' && c ≠ '\uFEFF' && !isFlowMark c

/-- The name behind the mark of an anchor or alias. -/
def name? (c : Cursor) : Option (String × Cursor) :=
  let (word, c) := (c.pass 1).take isNameChar
  if word.isEmpty then none else some (String.ofList word, c)

/-! ## Tags -/

/-- A character of a place in the network, as a tag may name one. -/
def isPlaceChar (c : Char) : Bool :=
  isWordChar c || "#;/?:@&=+$,.!~*'()[]%".toList.contains c

def isTagChar (c : Char) : Bool :=
  isPlaceChar c && !isFlowMark c && c ≠ '!'

/-- A byte behind a percent sign. -/
def byte? : List Char → Option Nat
  | '%' :: a :: b :: _ => digits? 16 [a, b]
  | _ => none

/-- A character written as bytes behind percent signs, and the number of characters that it takes.
    The two bytes of a character beyond ASCII are its code point as they stand, and three or four
    bytes are none. -/
def escaped? (cs : List Char) : Option (Char × Nat) := do
  let first ← byte? cs
  if first < 0x80 then return (Char.ofNat first, 3)
  else if 0xC0 ≤ first ∧ first < 0xE0 then
    let second ← byte? (cs.drop 3)
    let n := first * 256 + second
    if 0x80 ≤ second ∧ second < 0xC0 ∧ ¬(0xD800 ≤ n ∧ n ≤ 0xDFFF) then return (Char.ofNat n, 6)
    else none
  else none

/-- Reads characters of a kind with their escapes, and gathers them with the last one first. -/
def chars? (p : Char → Bool) (seen : List Char) : (rounds : Nat) → Cursor →
    Option (List Char × Cursor)
  | 0, _ => none
  | rounds + 1, c =>
    match c.rest with
    | [] => some (seen.reverse, c)
    | d :: _ =>
      if d = '%' then do
        let (e, n) ← escaped? c.rest
        chars? p (e :: seen) rounds (c.pass n)
      else if p d then chars? p (d :: seen) rounds (c.pass 1)
      else some (seen.reverse, c)

/-- The characters of a kind in front, with their escapes. -/
def text? (p : Char → Bool) (c : Cursor) : Option (List Char × Cursor) :=
  chars? p [] (c.rest.length + 1) c

/-- The handle in front: an exclamation mark, a word and, if it is there, another mark. -/
def handle (c : Cursor) : List Char × Cursor :=
  let (word, c) := (c.pass 1).take isWordChar
  if c.rest.head? = some '!' then ('!' :: word ++ ['!'], c.pass 1) else ('!' :: word, c)

def verbatim? (c : Cursor) : Option (Token × Cursor) := do
  let (suffix, c) ← text? isPlaceChar (c.pass 2)
  if c.rest.head? = some '>' then return (.tag "" (String.ofList suffix), c.pass 1) else none

/-- A tag with a handle, or of a word alone. -/
def short? (c : Cursor) : Option (Token × Cursor) := do
  let (front, c) := handle c
  let (suffix, c) ← text? isTagChar c
  if 2 ≤ front.length ∧ front.getLast? = some '!' then
    if suffix.isEmpty then none
    else return (.tag (String.ofList front) (String.ofList suffix), c)
  else
    let word := String.ofList (front.drop 1 ++ suffix)
    return (if word = "" then .tag "" "!" else .tag "!" word, c)

def tag? (inFlow : Bool) (c : Cursor) : Option (Token × Cursor) := do
  let (tag, c) ← if (c.rest.drop 1).head? = some '<' then verbatim? c else short? c
  if endsWord c.rest ∨ (inFlow ∧ c.rest.head?.any isFlowMark) then return (tag, c) else none

/-! ## Directives -/

def digits? (c : Cursor) : Option Cursor :=
  let (word, c) := c.take Char.isDigit
  if 1 ≤ word.length ∧ word.length ≤ 9 then some c else none

/-- The version behind the name of its directive. -/
def version? (c : Cursor) : Option (Token × Cursor) := do
  let c ← digits? c
  if c.rest.head? = some '.' then
    let c ← digits? (c.pass 1)
    return (.version, c)
  else none

/-- A handle and what it stands for behind the name of the directive. -/
def declaration? (c : Cursor) : Option (Token × Cursor) := do
  if c.rest.head? ≠ some '!' then none
  else
    let (front, c) := handle c
    if front ≠ ['!'] ∧ front.getLast? ≠ some '!' then none
    else
      let c := (c.take isBlank).2
      match c.rest with
      | [] => none
      | d :: _ =>
        if d = '!' ∨ isTagChar d then
          let (value, c) ← text? isPlaceChar c
          if endsWord c.rest then
            return (.handle (String.ofList front) (String.ofList value), c)
          else none
        else none

/-- The directive in front, on its line.  One of another name says nothing. -/
def directive? (c : Cursor) : Option (Token × Cursor) := do
  let (name, c) := (c.pass 1).take isWordChar
  if name.isEmpty ∨ !endsWord c.rest then none
  else
    let (token, c) ←
      if name = "YAML".toList then version? (c.take isBlank).2
      else if name = "TAG".toList then declaration? (c.take isBlank).2
      else some (.handle "" "", c.passLine)
    let c ← c.endLine?
    return (token, if c.rest.isEmpty then c else c.newLine)

end PeekLock.Yaml.Tag
