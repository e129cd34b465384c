import PeekLock.Pattern.Basic
import PeekLock.Text.Blank
import PeekLock.Text.Letter

/-! # Reading patterns

`Pattern.ofChars?` reads a pattern, and gives nothing for characters that are none.  A part may be
repeated but not counted: braces stand for nothing, and want a backslash in front.
-/

namespace PeekLock.Pattern

/-! ## Space -/

def passSpace (inComment : Bool) : List Char → List Char
  | [] => []
  | c :: rest =>
    if inComment then passSpace (c ≠ '\n') rest
    else if isWhiteSpace c then passSpace false rest
    else if c = '#' then passSpace true rest
    else c :: rest

/-- Goes past what says nothing between the parts of a pattern. -/
def space (spaced : Bool) (cs : List Char) : List Char :=
  if spaced then passSpace false cs else cs

/-- The character that follows, behind white space and a number sign if these say nothing. -/
def peek? (spaced : Bool) (cs : List Char) : Option Char :=
  if !spaced then cs.head?
  else
    let ahead :=
      match trimStart cs with
      | '#' :: rest => trimStart rest
      | ahead => ahead
    ahead.head?.or cs.head?

/-! ## Escapes -/

def hexDigit? (c : Char) : Option Nat :=
  if '0' ≤ c ∧ c ≤ '9' then some (c.toNat - '0'.toNat)
  else if 'a' ≤ c ∧ c ≤ 'f' then some (c.toNat - 'a'.toNat + 10)
  else if 'A' ≤ c ∧ c ≤ 'F' then some (c.toNat - 'A'.toNat + 10)
  else none

/-- A number of so many digits to base sixteen behind a number. -/
def hex? (spaced : Bool) (n : Nat) : (count : Nat) → List Char → Option (Nat × List Char)
  | 0, cs => some (n, cs)
  | _ + 1, [] => none
  | count + 1, c :: rest => do
    let d ← hexDigit? c
    hex? spaced (n * 16 + d) count (space spaced rest)

def coded? (spaced : Bool) (count : Nat) (cs : List Char) : Option (Pattern × List Char) := do
  let (n, rest) ← hex? spaced 0 count (space spaced cs)
  if n < 0xD800 ∨ (0xDFFF < n ∧ n ≤ 0x10FFFF) then
    return (.literal (Char.ofNat n) (count = 2), rest)
  else none

/-- Whether a backslash in front of a character makes it stand for itself. -/
def isEscapable (c : Char) : Bool :=
  c.toNat < 0x80 && !c.isAlphanum && c ≠ '<' && c ≠ '>'

/-- The letters that stand for control characters, and what they stand for. -/
def controls : List (Char × Char) :=
  [('a', '\x07'), ('f', '\x0c'), ('t', '\t'), ('n', '\n'), ('r', '\r'), ('v', '\x0b')]

/-- An escape behind its backslash. -/
def escape? (spaced : Bool) : List Char → Option (Pattern × List Char)
  | [] => none
  | c :: rest =>
    match c with
    | 'x' => coded? spaced 2 rest
    | 'u' => coded? spaced 4 rest
    | 'U' => coded? spaced 8 rest
    | 'p' | 'P' => if rest.isEmpty then none else some (.property, rest.drop 1)
    | 'd' | 's' | 'w' => some (.perl false, rest)
    | 'D' | 'S' | 'W' => some (.perl true, rest)
    | 'A' | 'z' => some (.anchor, rest)
    | 'b' | 'B' | '<' | '>' => some (.boundary, rest)
    | c =>
      match controls.lookup c with
      | some d => some (.literal d false, rest)
      | none => if isEscapable c then some (.literal c false, rest) else none

/-! ## Sets -/

def asciiNames : List String :=
  ["alnum", "alpha", "ascii", "blank", "cntrl", "digit", "graph", "lower", "print", "punct",
    "space", "upper", "word", "xdigit"]

/-- A named class behind its bracket. -/
def asciiClass? (cs : List Char) : Option (SetItem × List Char) := do
  let ':' :: rest := cs | none
  let (isNegated, rest) := match rest with
    | '^' :: rest => (true, rest)
    | _ => (false, rest)
  let (name, rest) := rest.span (· ≠ ':')
  let ':' :: ']' :: rest := rest | none
  if asciiNames.contains (String.ofList name) then return (.ascii isNegated, rest) else none

/-- One character of a set, or one escape. -/
def setPart? (spaced : Bool) : List Char → Option (Pattern × List Char)
  | [] => none
  | '\\' :: rest => escape? spaced rest
  | c :: rest => some (.literal c false, rest)

/-- A part of a pattern as an item of a set. -/
def toItem? : Pattern → Option SetItem
  | .literal c isByte => some (.literal c isByte)
  | .perl isNegated => some (.perl isNegated)
  | .property => some .property
  | _ => none

def range? : Pattern → Pattern → Option SetItem
  | .literal c _, .literal d _ => if c ≤ d then some (.range c d) else none
  | _, _ => none

/-- An item of a set: a part, or two with a hyphen between them. -/
def setItem? (spaced : Bool) (cs : List Char) : Option (SetItem × List Char) := do
  let (first, rest) ← setPart? spaced cs
  let rest := space spaced rest
  match rest with
  | [] => none
  | '-' :: more =>
    let next := peek? spaced more
    if next = some ']' ∨ next = some '-' then
      let item ← toItem? first
      return (item, rest)
    else
      let (last, rest) ← setPart? spaced (space spaced more)
      let item ← range? first last
      return (item, rest)
  | rest =>
    let item ← toItem? first
    return (item, rest)

/-- The hyphens at the start of a set, which stand for themselves. -/
def hyphens (spaced : Bool) (seen : List SetItem) : (rounds : Nat) → List Char →
    List SetItem × List Char
  | rounds + 1, '-' :: rest =>
    let rest := space spaced rest
    hyphens spaced (.literal '-' false :: seen) rounds rest
  | _, cs => (seen, cs)

mutual

/-- A set behind its bracket.  A bracket that closes stands for itself where it comes first. -/
def set? (spaced : Bool) : (rounds : Nat) → List Char → Option (SetItem × List Char)
  | 0, _ => none
  | rounds + 1, cs =>
    let cs := space spaced cs
    let (isNegated, cs) := match cs with
      | '^' :: rest => (true, space spaced rest)
      | _ => (false, cs)
    let (items, cs) := hyphens spaced [] cs.length cs
    match items, cs with
    | [], ']' :: rest => setBody? spaced isNegated [] [.literal ']' false] rounds rest
    | items, cs => setBody? spaced isNegated [] items rounds cs

/-- The rest of a set behind whole operands and the items of the last one. -/
def setBody? (spaced isNegated : Bool) (operands : List (List SetItem)) (items : List SetItem) :
    (rounds : Nat) → List Char → Option (SetItem × List Char)
  | 0, _ => none
  | rounds + 1, cs =>
    let add (item : SetItem) (rest : List Char) :=
      setBody? spaced isNegated operands (item :: items) rounds rest
    match space spaced cs with
    | [] => none
    | ']' :: rest => some (.set isNegated (items :: operands).reverse, rest)
    | '&' :: '&' :: rest => setBody? spaced isNegated (items :: operands) [] rounds rest
    | '-' :: '-' :: rest => setBody? spaced isNegated (items :: operands) [] rounds rest
    | '~' :: '~' :: rest => setBody? spaced isNegated (items :: operands) [] rounds rest
    | '[' :: rest =>
      match asciiClass? rest with
      | some (item, rest) => add item rest
      | none => do
        let (item, rest) ← set? spaced rounds rest
        add item rest
    | cs => do
      let (item, rest) ← setItem? spaced cs
      add item rest

end

/-! ## Groups -/

def flag? : Char → Option PatternFlag
  | 'i' => some .ignoreCase
  | 'm' => some .multiLine
  | 's' => some .dotAll
  | 'U' => some .swapGreed
  | 'u' => some .unicode
  | 'R' => some .crlf
  | 'x' => some .spaced
  | _ => none

/-- Switches up to a colon, behind which a group goes on, or a parenthesis.  No switch comes
    twice, and none is missing behind a minus. -/
def flags? (seen : FlagChanges) (isOn isDangling : Bool) :
    List Char → Option (FlagChanges × Bool × List Char)
  | [] => none
  | ':' :: rest => if isDangling then none else some (seen.reverse, true, rest)
  | ')' :: rest => if isDangling then none else some (seen.reverse, false, rest)
  | '-' :: rest => if isOn then flags? seen false true rest else none
  | c :: rest => do
    let f ← flag? c
    if seen.any (·.1 = f) then none else flags? ((f, isOn) :: seen) isOn false rest

def name? (cs : List Char) : Option (String × List Char) := do
  let isFirst (c : Char) : Bool := c = '_' || isAlphabetic c
  let isNext (c : Char) : Bool := c = '_' || c = '.' || c = '[' || c = ']' || isAlphanumeric c
  let (name, rest) := cs.span (· ≠ '>')
  let '>' :: rest := rest | none
  if name.head?.any isFirst ∧ (name.drop 1).all isNext then return (String.ofList name, rest)
  else none

/-- What opens a group behind its parenthesis. -/
inductive Opening where
  | plain
  | named (name : String)
  | switched (changes : FlagChanges)
  /-- Switches without a group. -/
  | switches (changes : FlagChanges)

/-- Reads what opens a group.  No group looks ahead or behind. -/
def opening? : List Char → Option (Opening × List Char)
  | '?' :: 'P' :: '<' :: rest => (name? rest).map fun (name, rest) => (.named name, rest)
  | '?' :: '<' :: rest => (name? rest).map fun (name, rest) => (.named name, rest)
  | '?' :: rest => do
    let (changes, isGroup, rest) ← flags? [] true false rest
    if isGroup then return (.switched changes, rest)
    else if changes.isEmpty then none
    else return (.switches changes, rest)
  | cs => some (.plain, cs)

/-! ## Patterns -/

/-- How far a pattern has been read. -/
structure Reading where
  rest : List Char
  spaced : Bool := false
  /-- The names of the groups so far. -/
  names : List String := []

/-- The reading behind switches. -/
def Reading.apply (r : Reading) (changes : FlagChanges) : Reading :=
  { r with spaced := (changes.lookup .spaced).getD r.spaced }

def isRepeatable : Pattern → Bool
  | .flags _ => false
  | _ => true

mutual

/-- A choice up to the end of its group. -/
def choice? (seen : List Pattern) : (rounds : Nat) → Reading → Option (Pattern × Reading)
  | 0, _ => none
  | rounds + 1, r => do
    let (p, r) ← sequence? [] rounds r
    match r.rest with
    | '|' :: rest => choice? (p :: seen) rounds { r with rest }
    | _ => return (.choice (p :: seen).reverse, r)

/-- Parts one after the other behind those already read, the last one first. -/
def sequence? (seen : List Pattern) : (rounds : Nat) → Reading → Option (Pattern × Reading)
  | 0, _ => none
  | rounds + 1, r =>
    let cs := space r.spaced r.rest
    let add (p : Pattern) (rest : List Char) := sequence? (p :: seen) rounds { r with rest }
    match cs with
    | [] => some (.sequence seen.reverse, { r with rest := cs })
    | ')' :: _ => some (.sequence seen.reverse, { r with rest := cs })
    | '|' :: _ => some (.sequence seen.reverse, { r with rest := cs })
    | '(' :: rest => do
      let (p, r) ← group? rounds { r with rest }
      sequence? (p :: seen) rounds r
    | '[' :: rest => do
      let (item, rest) ← set? r.spaced (rest.length + rest.length + 2) rest
      add (.set item) rest
    | '\\' :: rest => do
      let (p, rest) ← escape? r.spaced rest
      add p rest
    | '.' :: rest => add .dot rest
    | '^' :: rest => add .anchor rest
    | '$' :: rest => add .anchor rest
    | '\x7b' :: _ => none
    | c :: rest =>
      if c = '?' ∨ c = '*' ∨ c = '+' then
        match seen with
        | p :: seen =>
          let rest := if rest.head? = some '?' then rest.drop 1 else rest
          if isRepeatable p then sequence? (.repeated p :: seen) rounds { r with rest } else none
        | [] => none
      else add (.literal c false) rest

/-- A group behind its parenthesis, or switches. -/
def group? : (rounds : Nat) → Reading → Option (Pattern × Reading)
  | 0, _ => none
  | rounds + 1, r => do
    let (opening, rest) ← opening? (space r.spaced r.rest)
    let inside (changes : FlagChanges) (r : Reading) : Option (Pattern × Reading) := do
      let (p, inner) ← choice? [] rounds (r.apply changes)
      let ')' :: rest := inner.rest | none
      return (.group changes p, { inner with rest, spaced := r.spaced })
    match opening with
    | .plain => inside [] { r with rest }
    | .named name =>
      if r.names.contains name then none else inside [] { r with rest, names := name :: r.names }
    | .switched changes => inside changes { r with rest }
    | .switches changes => return (.flags changes, ({ r with rest }).apply changes)

end

def ofChars? (cs : List Char) : Option Pattern := do
  let (p, r) ← choice? [] (3 * cs.length + 3) { rest := cs }
  if r.rest.isEmpty then return p else none

end PeekLock.Pattern
