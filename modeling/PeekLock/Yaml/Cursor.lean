/-! # A place in a YAML text

`Cursor` is the text from some character on, with the line and column of that character.  Line ends
are one character each, as `Cursor.ofText` makes them.  How far a cursor goes is decided on its
characters; `skip`, `pass` and `newLine` then keep line and column true.
-/

namespace PeekLock.Yaml

/-! ## Characters -/

/-- Whether a character is a space or a tab. -/
def isBlank (c : Char) : Bool :=
  c = ' ' || c = '\t'

/-- A bracket, brace or comma. -/
def isFlowMark (c : Char) : Bool :=
  c = ',' || c = '[' || c = ']' || c = '\x7b' || c = '\x7d'

/-- A letter or digit of ASCII, a hyphen or an underscore. -/
def isWordChar (c : Char) : Bool :=
  c.isAlphanum || c = '-' || c = '_'

def endsLine : List Char → Bool
  | [] => true
  | c :: _ => c = '\n'

def endsWord : List Char → Bool
  | [] => true
  | c :: _ => isBlank c || c = '\n'

def startMark : List Char := ['-', '-', '-']

/-- The mark behind a document. -/
def endMark : List Char := ['.', '.', '.']

def hasMark (mark cs : List Char) : Bool :=
  mark.isPrefixOf cs && endsWord (cs.drop mark.length)

def hasDocumentMark (cs : List Char) : Bool :=
  hasMark startMark cs || hasMark endMark cs

/-- Characters with one kind of line end, up to the first null character, which ends a text. -/
def normalize : List Char → List Char
  | [] => []
  | '\r' :: '\n' :: rest => '\n' :: normalize rest
  | '\r' :: rest => '\n' :: normalize rest
  | c :: rest => if c = '\x00' then [] else c :: normalize rest

/-! ## Cursors -/

/-- A place in a text. -/
structure Cursor where
  rest : List Char
  /-- The number of characters in front. -/
  index : Nat := 0
  line : Nat := 0
  column : Nat := 0
  /-- Whether only blanks stand in front on the line. -/
  isLeading : Bool := true
deriving Repr

namespace Cursor

def ofText (cs : List Char) : Cursor :=
  ⟨normalize cs, 0, 0, 0, true⟩

def skip (n : Nat) (c : Cursor) : Cursor :=
  ⟨c.rest.drop n, c.index + n, c.line, c.column + n, c.isLeading⟩

def pass (n : Nat) (c : Cursor) : Cursor :=
  ⟨c.rest.drop n, c.index + n, c.line, c.column + n, false⟩

def newLine (c : Cursor) : Cursor :=
  ⟨c.rest.drop 1, c.index + 1, c.line + 1, 0, true⟩

def passLine (c : Cursor) : Cursor :=
  c.pass (c.rest.takeWhile (· ≠ '\n')).length

/-- The characters of a kind in front, which are no line ends, and the place behind them. -/
def take (p : Char → Bool) (c : Cursor) : List Char × Cursor :=
  let word := c.rest.takeWhile p
  (word, c.pass word.length)

/-- The blanks in front and the place behind them and a comment.  A comment needs a blank in front
    of it. -/
def passBlanks? (c : Cursor) : Option (List Char × Cursor) :=
  let blanks := c.rest.takeWhile isBlank
  let c := c.skip blanks.length
  if c.rest.head? ≠ some '#' then some (blanks, c)
  else if blanks.isEmpty then none
  else some (blanks, c.passLine)

/-- The place at the end of the line, if only blanks and a comment are in front of it. -/
def endLine? (c : Cursor) : Option Cursor := do
  let (_, c) ← c.passBlanks?
  if endsLine c.rest then return c else none

end Cursor

end PeekLock.Yaml
