import PeekLock.Yaml.Cursor
import PeekLock.Yaml.Scalar

/-! # YAML scalars in quotes

In double quotes a backslash begins an escape; in single quotes a quote is written twice.  Blanks
around a line end go, and the line end is folded: one is a space, more are one less.  A line end
behind a backslash is nothing.
-/

namespace PeekLock.Yaml.Quoted

/-! ## Escapes -/

/-- The character of a code point given by so many digits to base sixteen, and their number. -/
def coded (count : Nat) (cs : List Char) : Option (Char × Nat) := do
  if cs.length < count then none
  else
    let n ← digits? 16 (cs.take count)
    if n < 0xD800 ∨ (0xDFFF < n ∧ n ≤ 0x10FFFF) then return (Char.ofNat n, count) else none

/-- The character of an escape behind its backslash, and the number of characters behind its
    letter. -/
def unescape? : List Char → Option (Char × Nat)
  | [] => none
  | c :: rest =>
    match c with
    | '0' => some ('\x00', 0)
    | 'a' => some ('\x07', 0)
    | 'b' => some ('\x08', 0)
    | 't' | '\t' => some ('\t', 0)
    | 'n' => some ('\n', 0)
    | 'v' => some ('\x0b', 0)
    | 'f' => some ('\x0c', 0)
    | 'r' => some ('\r', 0)
    | 'e' => some ('\x1b', 0)
    | ' ' | '"' | '/' | '\\' => some (c, 0)
    | 'N' => some ('\x85', 0)
    | '_' => some ('\xa0', 0)
    | 'L' => some ('\u2028', 0)
    | 'P' => some ('\u2029', 0)
    | 'x' => coded 2 rest
    | 'u' => coded 4 rest
    | 'U' => coded 8 rest
    | _ => none

/-! ## Gaps between words -/

/-- The first line end of a gap. -/
inductive FirstBreak where
  | none
  | written
  /-- Behind a backslash. -/
  | escaped
deriving DecidableEq, Repr

/-- Blanks and line ends between words. -/
structure Gap where
  first : FirstBreak := .none
  /-- The blanks in front of the first line end, the last one first. -/
  blanks : List Char := []
  /-- The number of line ends behind the first. -/
  more : Nat := 0
deriving Repr

def Gap.text (g : Gap) : List Char :=
  match g.first with
  | .none => g.blanks.reverse
  | .written => if g.more = 0 then [' '] else List.replicate g.more '\n'
  | .escaped => List.replicate g.more '\n'

/-- Goes past a gap.  No tab may stand in the indentation. -/
def passGap? (indent : Int) (g : Gap) : (rounds : Nat) → Cursor → Option (Gap × Cursor)
  | 0, _ => none
  | rounds + 1, c =>
    match c.rest with
    | [] => some (g, c)
    | d :: _ =>
      if d = '\n' then
        let g := if g.first = .none then ⟨.written, [], g.more⟩ else { g with more := g.more + 1 }
        passGap? indent g rounds c.newLine
      else if !isBlank d then some (g, c)
      else if g.first = .none then
        passGap? indent { g with blanks := d :: g.blanks } rounds (c.skip 1)
      else if d = '\t' ∧ c.column < indent then none
      else passGap? indent g rounds (c.skip 1)

/-! ## Scalars -/

/-- Reads a word up to a gap or the quote that ends the scalar, and tells whether a line end behind
    a backslash has ended it.  Characters are gathered with the last one first. -/
def passWord? (quote : Char) (seen : List Char) : (rounds : Nat) → Cursor →
    Option (Bool × List Char × Cursor)
  | 0, _ => none
  | rounds + 1, c =>
    match c.rest with
    | [] => some (false, seen, c)
    | d :: rest =>
      if isBlank d || d = '\n' then some (false, seen, c)
      else if d = quote then
        if quote = '\'' ∧ rest.head? = some quote then
          passWord? quote (quote :: seen) rounds (c.pass 2)
        else some (false, seen, c)
      else if d = '\\' ∧ quote = '"' then
        if rest.head? = some '\n' then some (true, seen, (c.pass 1).newLine)
        else do
          let (e, n) ← unescape? rest
          passWord? quote (e :: seen) rounds (c.pass (n + 2))
      else passWord? quote (d :: seen) rounds (c.pass 1)

/-- The contents of a scalar behind its first quote, and the place behind its last.  Its lines are
    indented and hold no mark between documents. -/
def contents? (quote : Char) (indent : Int) (seen : List Char) : (rounds : Nat) → Cursor →
    Option (List Char × Cursor)
  | 0, _ => none
  | rounds + 1, c => do
    if c.rest.isEmpty ∨ (c.column = 0 ∧ hasDocumentMark c.rest) ∨ c.column < indent then none
    else
      let (isEscaped, seen, c) ← passWord? quote seen (c.rest.length + 1) c
      if c.rest.head? = some quote then return (seen.reverse, c.pass 1)
      else
        let gap : Gap := { first := if isEscaped then .escaped else .none }
        let (gap, c) ← passGap? indent gap (c.rest.length + 1) c
        contents? quote indent (gap.text.reverse ++ seen) rounds c

/-- Whether this may follow a scalar in quotes that began on a line. -/
def mayFollow (inFlow : Bool) (line : Nat) (c : Cursor) : Bool :=
  endsLine c.rest ||
    match c.rest.head? with
    | some ':' => inFlow || line = c.line
    | some d => inFlow && (d = ',' || d = ']' || d = '\x7d')
    | none => true

/-- A scalar in quotes, and the place behind it and the blanks that follow. -/
def scalar? (inFlow : Bool) (indent : Int) (c : Cursor) : Option (List Char × Cursor) := do
  let quote ← c.rest.head?
  let line := c.line
  let (cs, c) ← contents? quote indent [] (c.rest.length + 1) (c.pass 1)
  let (_, c) ← c.passBlanks?
  if mayFollow inFlow line c then return (cs, c) else none

end PeekLock.Yaml.Quoted
