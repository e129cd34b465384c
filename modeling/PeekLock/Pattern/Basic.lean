/-! # Patterns

Regular expressions, and which of them can be matched here.  No tables of character properties are
at hand: what needs one cannot be matched, and neither can what would match a part of a character.
`Pattern.isUsable` tells this from the switches that hold at each place.
-/

namespace PeekLock

/-- A switch of a pattern. -/
inductive PatternFlag where
  | ignoreCase
  | multiLine
  | dotAll
  | swapGreed
  /-- Whether a pattern is about characters; otherwise it is about bytes. -/
  | unicode
  | crlf
  /-- Whether white space and comments between parts say nothing. -/
  | spaced
deriving DecidableEq, Repr

/-- Switches that are turned on or off. -/
abbrev FlagChanges : Type := List (PatternFlag × Bool)

/-- The switches that decide what can be matched. -/
structure PatternMode where
  unicode : Bool := true
  ignoreCase : Bool := false
deriving DecidableEq, Repr

/-- A part of a set of characters. -/
inductive SetItem where
  /-- A character; perhaps it is written as a byte. -/
  | literal (c : Char) (isByte : Bool)
  | range (first last : Char)
  /-- A named class of ASCII. -/
  | ascii (isNegated : Bool)
  /-- Digits, white space or word characters. -/
  | perl (isNegated : Bool)
  /-- A property of characters. -/
  | property
  /-- A set: the items of its operands. -/
  | set (isNegated : Bool) (operands : List (List SetItem))
deriving Inhabited

/-- A pattern. -/
inductive Pattern where
  /-- Switches for what follows in the group. -/
  | flags (changes : FlagChanges)
  /-- A character; perhaps it is written as a byte. -/
  | literal (c : Char) (isByte : Bool)
  | dot
  /-- A place at the start or end of a line or text. -/
  | anchor
  /-- A place at the start or end of a word, or none such. -/
  | boundary
  /-- Digits, white space or word characters. -/
  | perl (isNegated : Bool)
  /-- A property of characters. -/
  | property
  | set (item : SetItem)
  | repeated (p : Pattern)
  | group (changes : FlagChanges) (p : Pattern)
  /-- One after the other. -/
  | sequence (ps : List Pattern)
  /-- One of several. -/
  | choice (ps : List Pattern)
deriving Inhabited

/-! ## Switches -/

/-- The mode after switches. -/
def PatternMode.apply (m : PatternMode) (changes : FlagChanges) : PatternMode where
  unicode := (changes.lookup .unicode).getD m.unicode
  ignoreCase := (changes.lookup .ignoreCase).getD m.ignoreCase

/-! ## Sets -/

namespace SetItem

mutual

/-- Whether an item stands for no character. -/
def isVacant : SetItem → Bool
  | .set false operands => areVacant operands
  | _ => false

/-- Whether operands stand for no character. -/
def areVacant : List (List SetItem) → Bool
  | [] => true
  | items :: rest => itemsVacant items && areVacant rest

/-- Whether items stand for no character. -/
def itemsVacant : List SetItem → Bool
  | [] => true
  | item :: rest => item.isVacant && itemsVacant rest

end

mutual

def isUsable (m : PatternMode) : SetItem → Bool
  | .literal c _ => m.unicode || c.toNat < 0x80
  | .range first last => m.unicode || (first.toNat < 0x80 && last.toNat < 0x80)
  | .ascii isNegated => if m.unicode then !m.ignoreCase else !isNegated
  | .perl isNegated => !m.unicode && !isNegated
  | .property => false
  | .set isNegated operands =>
    operandsUsable m operands &&
      (if m.unicode then !m.ignoreCase || areVacant operands else !isNegated)

def operandsUsable (m : PatternMode) : List (List SetItem) → Bool
  | [] => true
  | items :: rest => itemsUsable m items && operandsUsable m rest

def itemsUsable (m : PatternMode) : List SetItem → Bool
  | [] => true
  | item :: rest => item.isUsable m && itemsUsable m rest

end

mutual

def depth : SetItem → Nat
  | .set _ operands => 1 + operandsDepth none operands
  | _ => 0

/-- The levels of operands behind those of the operands in front. -/
def operandsDepth (front : Option Nat) : List (List SetItem) → Nat
  | [] => front.getD 0
  | items :: rest =>
    let here := if items.length < 2 then itemsDepth items else 1 + itemsDepth items
    operandsDepth (some (match front with
      | some n => 1 + max n here
      | none => here)) rest

def itemsDepth : List SetItem → Nat
  | [] => 0
  | item :: rest => max item.depth (itemsDepth rest)

end

end SetItem

/-! ## Patterns -/

namespace Pattern

mutual

/-- The mode behind a pattern, if it can be matched. -/
def modeBehind? (m : PatternMode) : Pattern → Option PatternMode
  | .flags changes => some (m.apply changes)
  | .literal c isByte =>
    if (if m.unicode then !m.ignoreCase else !isByte || c.toNat < 0x80) then some m else none
  | .dot => if m.unicode then some m else none
  | .anchor => some m
  | .boundary => if m.unicode then none else some m
  | .perl isNegated => if !m.unicode && !isNegated then some m else none
  | .property => none
  | .set item => if item.isUsable m then some m else none
  | .repeated p => modeBehind? m p
  | .group changes p => (modeBehind? (m.apply changes) p).map fun _ => m
  | .sequence ps => modeBehindAll? m ps
  | .choice ps => modeBehindAll? m ps

/-- The mode behind patterns one after the other. -/
def modeBehindAll? (m : PatternMode) : List Pattern → Option PatternMode
  | [] => some m
  | p :: rest => do
    let m ← modeBehind? m p
    modeBehindAll? m rest

end

mutual

def depth : Pattern → Nat
  | .set item => item.depth
  | .repeated p => 1 + p.depth
  | .group _ p => 1 + p.depth
  | .sequence ps => if ps.length < 2 then depths ps else 1 + depths ps
  | .choice ps => if ps.length < 2 then depths ps else 1 + depths ps
  | _ => 0

def depths : List Pattern → Nat
  | [] => 0
  | p :: rest => max p.depth (depths rest)

end

def maxDepth : Nat := 250

def isUsable (p : Pattern) : Bool :=
  p.depth ≤ maxDepth && (p.modeBehind? {}).isSome

end Pattern

end PeekLock
