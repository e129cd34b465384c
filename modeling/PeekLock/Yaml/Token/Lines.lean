import PeekLock.Yaml.Cursor

/-! # YAML scalars that are blocks of lines

A bar or an angle in front, and lines below with an indentation of their own.  The header tells what
becomes of the line ends behind the last line, and may give the indentation.
-/

namespace PeekLock.Yaml.Lines

/-- What becomes of the line ends behind the last line. -/
inductive Chomping where
  | strip
  | clip
  | keep
deriving DecidableEq, Repr

/-! ## Header -/

def chomping? : List Char → Option Chomping
  | '+' :: _ => some .keep
  | '-' :: _ => some .strip
  | _ => none

/-- A written indentation; there is none of zero. -/
def digit? : List Char → Option Nat
  | c :: _ => if c.isDigit then some (c.toNat - '0'.toNat) else none
  | [] => none

/-- The header behind its mark: sign and indentation, in either order. -/
def header? (c : Cursor) : Option (Chomping × Option Nat × Cursor) :=
  let (chomping, increment, c) :=
    match chomping? c.rest with
    | some chomping =>
      let c := c.pass 1
      match digit? c.rest with
      | some n => (chomping, some n, c.pass 1)
      | none => (chomping, none, c)
    | none =>
      match digit? c.rest with
      | some n =>
        let c := c.pass 1
        match chomping? c.rest with
        | some chomping => (chomping, some n, c.pass 1)
        | none => (.clip, some n, c)
      | none => (.clip, none, c)
  if increment = some 0 then none else some (chomping, increment, c)

/-! ## Lines -/

/-- Goes past the indentation and empty lines, and counts their line ends. -/
def passIndent (indent breaks : Nat) : (rounds : Nat) → Cursor → Nat × Cursor
  | 0, c => (breaks, c)
  | rounds + 1, c =>
    let c := c.skip ((c.rest.takeWhile (· = ' ')).take (indent - c.column)).length
    if c.rest.head? = some '\n' then passIndent indent (breaks + 1) rounds c.newLine
    else (breaks, c)

/-- Goes past all spaces and empty lines in front of the first line, and gives the number of line
    ends and the widest of these indentations. -/
def passFirst (widest breaks : Nat) : (rounds : Nat) → Cursor → Nat × Nat × Cursor
  | 0, c => (widest, breaks, c)
  | rounds + 1, c =>
    let c := c.skip (c.rest.takeWhile (· = ' ')).length
    let widest := max widest c.column
    if c.rest.head? = some '\n' then passFirst widest (breaks + 1) rounds c.newLine
    else (widest, breaks, c)

/-- What has been read of a block: its characters, the last one first, the line end behind the last
    line, if there is one, and the empty lines behind that. -/
structure Block where
  seen : List Char := []
  hasBreak : Bool := false
  breaks : Nat := 0
  /-- Whether the last line begins with a blank; such lines are not folded. -/
  isMore : Bool := false
deriving Repr

/-- What stands for the line ends in front of a next line. -/
def Block.joint (b : Block) (isFolded isMore : Bool) : List Char :=
  if isFolded && b.hasBreak && !b.isMore && !isMore then
    if b.breaks = 0 then [' '] else List.replicate b.breaks '\n'
  else List.replicate (b.breaks + if b.hasBreak then 1 else 0) '\n'

def lines (isFolded : Bool) (indent : Nat) (b : Block) : (rounds : Nat) → Cursor → Block × Cursor
  | 0, c => (b, c)
  | rounds + 1, c =>
    if c.column ≠ indent ∨ c.rest.isEmpty then (b, c)
    else
      let isMore := c.rest.head?.any isBlank
      let line := c.rest.takeWhile (· ≠ '\n')
      let seen := line.reverse ++ ((b.joint isFolded isMore).reverse ++ b.seen)
      let c := c.skip line.length
      if c.rest.isEmpty then (⟨seen, false, 0, isMore⟩, c)
      else
        let (breaks, c) := passIndent indent 0 (c.rest.length + 1) c.newLine
        lines isFolded indent ⟨seen, true, breaks, isMore⟩ rounds c

/-- The characters of a block that has been read up to a place. -/
def Block.contents (b : Block) (chomping : Chomping) (indent : Nat) (c : Cursor) : List Char :=
  let last := b.hasBreak.toNat + (c.rest.isEmpty && max indent 1 ≤ c.column).toNat
  match chomping with
  | .strip => b.seen.reverse
  | .clip => b.seen.reverse ++ List.replicate last '\n'
  | .keep => b.seen.reverse ++ List.replicate (last + b.breaks) '\n'

/-- The characters of a block without any line, with the line ends behind its header. -/
def emptyContents (chomping : Chomping) (hasBreak : Bool) (breaks : Nat) : List Char :=
  match chomping with
  | .strip => []
  | .clip => if hasBreak then ['\n'] else []
  | .keep => if hasBreak then List.replicate (max breaks 1) '\n' else []

/-- A block of lines below something with an indentation, and the place behind it. -/
def scalar? (parent : Int) (c : Cursor) : Option (List Char × Cursor) := do
  let isFolded := c.rest.head? = some '>'
  let (chomping, increment, c) ← header? (c.pass 1)
  let c ← c.endLine?
  let hasBreak := !c.rest.isEmpty
  let c := if hasBreak then c.newLine else c
  if c.rest.head? = some '\t' then none
  else
    let (indent, breaks, c) :=
      match increment with
      | some n =>
        let indent := parent.toNat + n
        let (breaks, c) := passIndent indent 0 (c.rest.length + 1) c
        (indent, breaks, c)
      | none =>
        let (widest, breaks, c) := passFirst 0 0 (c.rest.length + 1) c
        (max widest (parent + 1).toNat, breaks, c)
    if c.rest.isEmpty then return (emptyContents chomping hasBreak breaks, c)
    else if c.column < indent ∧ parent < c.column then none
    else
      let (b, c) := lines isFolded indent { breaks } (c.rest.length + 1) c
      return (b.contents chomping indent c, c)

end PeekLock.Yaml.Lines
