import PeekLock.Yaml.Cursor

/-! # YAML scalars without quotes

A plain scalar goes on over lines that are further in than what it belongs to, and ends in front of
a colon with a blank, a comment or, between brackets, a bracket or comma.
-/

namespace PeekLock.Yaml.Plain

/-- Whether a character ends a word, in view of those behind it. -/
def endsHere (inFlow : Bool) (c : Char) (rest : List Char) : Bool :=
  isBlank c || c = '\n' || (inFlow && isFlowMark c) ||
    (c = ':' && (endsWord rest || (inFlow && rest.head?.any isFlowMark)))

def word (inFlow : Bool) : List Char → List Char
  | [] => []
  | c :: rest => if endsHere inFlow c rest then [] else c :: word inFlow rest

/-- Blanks and line ends between words. -/
structure Gap where
  /-- The blanks in front of the first line end, the last one first. -/
  blanks : List Char := []
  /-- Whether there is a line end. -/
  isFolded : Bool := false
  /-- The number of line ends behind the first. -/
  more : Nat := 0
deriving Repr

def Gap.text (g : Gap) : List Char :=
  if !g.isFolded then g.blanks.reverse
  else if g.more = 0 then [' ']
  else List.replicate g.more '\n'

/-- Goes past a gap.  Where a tab stands in the indentation, nothing but a comment may follow on its
    line. -/
def passGap? (indent : Int) (g : Gap) : (rounds : Nat) → Cursor → Option (Gap × Cursor)
  | 0, _ => none
  | rounds + 1, c =>
    match c.rest with
    | [] => some (g, c)
    | d :: _ =>
      if d = '\n' then
        let g := if c.isLeading then { g with more := g.more + 1 } else ⟨[], true, g.more⟩
        passGap? indent g rounds c.newLine
      else if !isBlank d then some (g, c)
      else if !c.isLeading then
        passGap? indent { g with blanks := d :: g.blanks } rounds (c.skip 1)
      else if d = '\t' ∧ c.column < indent then do
        let c ← c.endLine?
        passGap? indent g rounds c
      else passGap? indent g rounds (c.skip 1)

/-- A plain scalar behind what has been read of it, the last character first. -/
def scalarFrom? (inFlow : Bool) (indent : Int) (seen : List Char) (g : Gap) :
    (rounds : Nat) → Cursor → Option (List Char × Cursor)
  | 0, _ => none
  | rounds + 1, c => do
    if (c.column = 0 ∧ hasDocumentMark c.rest) ∨ c.rest.head? = some '#' then
      return (seen.reverse, c)
    else if inFlow ∧ c.rest.head? = some '-' ∧ (c.rest.drop 1).head?.any isFlowMark then none
    else
      let cs := word inFlow c.rest
      let seen := if cs.isEmpty then seen else cs.reverse ++ (g.text.reverse ++ seen)
      let c := if cs.isEmpty then c else c.pass cs.length
      if !(c.rest.head?.any fun d => isBlank d || d = '\n') then return (seen.reverse, c)
      else
        let (g, c) ← passGap? indent {} (c.rest.length + 1) c
        if !inFlow ∧ c.column < indent then return (seen.reverse, c)
        else scalarFrom? inFlow indent seen g rounds c

/-- A plain scalar whose lines have at least an indentation, and the place behind it. -/
def scalar? (inFlow : Bool) (indent : Int) (c : Cursor) : Option (List Char × Cursor) :=
  if inFlow ∧ c.column < indent then none
  else scalarFrom? inFlow indent [] {} (c.rest.length + 1) c

end PeekLock.Yaml.Plain
