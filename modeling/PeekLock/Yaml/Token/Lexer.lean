import PeekLock.Yaml.Token
import PeekLock.Yaml.Token.Lines
import PeekLock.Yaml.Token.Plain
import PeekLock.Yaml.Token.Quoted
import PeekLock.Yaml.Token.Tag

/-! # Cutting a YAML text into tokens

Indentation becomes tokens where a sequence or mapping begins and ends.  A key shows only at the
colon behind it: `Lexer.key` remembers where the last token that may be a key stands, and the tokens
for the key, and for the mapping that begins with it, are put in front of that token later.
-/

namespace PeekLock.Yaml

/-- An indentation. -/
structure Level where
  column : Int
  /-- Whether a sequence or mapping stands at it; otherwise something belongs to one and must be
      further in. -/
  isBlock : Bool
deriving DecidableEq, Repr

/-- Where a token stands that may be a key. -/
structure KeyPlace where
  /-- Whether it must be a key, since nothing else can stand there. -/
  isRequired : Bool
  /-- The number of tokens in front of it. -/
  position : Nat
  index : Nat
  line : Nat
  column : Nat
deriving DecidableEq, Repr

/-- How far a text has been cut. -/
structure Lexer where
  cursor : Cursor
  tokens : Array Token := #[]
  /-- The indentations, the innermost first. -/
  levels : List Level := []
  mayBeKey : Bool := true
  key : Option KeyPlace := none
  /-- The keys that may stand outside the brackets, by bracket, the innermost first. -/
  outerKeys : List (Option KeyPlace) := []
  /-- Where a value may follow its colon without a blank. -/
  adjacent : Nat := 0
  /-- Whether the entries that come are those of a mapping in braces. -/
  inBraces : Bool := false
  /-- For the square brackets that are open, whether an entry without braces has begun. -/
  pairs : List Bool := []
  /-- The number of tokens behind a name or tag at the start of a line. -/
  margin : Option Nat := none
deriving Repr

namespace Lexer

/-! ## State -/

def indent (l : Lexer) : Int :=
  (l.levels.head?.map (·.column)).getD (-1)

/-- Whether brackets or braces are open. -/
def inFlow (l : Lexer) : Bool :=
  !l.outerKeys.isEmpty

def flowLimit : Nat := 255

def push (t : Token) (l : Lexer) : Lexer :=
  { l with tokens := l.tokens.push t }

/-- Adds a token behind so many others. -/
def insert (position : Nat) (t : Token) (l : Lexer) : Lexer :=
  { l with tokens := l.tokens.insertIdxIfInBounds position t }

def moveTo (c : Cursor) (l : Lexer) : Lexer :=
  { l with cursor := c }

/-! ## Indentation -/

/-- Leaves the indentations that are further in than a column. -/
def unindent (column : Int) (l : Lexer) : Lexer :=
  if l.inFlow then l
  else
    let (gone, levels) := l.levels.span fun level => column < level.column
    let ends := (gone.filter (·.isBlock)).map fun _ => Token.blockEnd
    { l with levels, tokens := l.tokens ++ ends.toArray }

/-- Leaves the indentations that belong to no sequence or mapping. -/
def leaveLoose (l : Lexer) : Lexer :=
  { l with levels := l.levels.dropWhile (!·.isBlock) }

/-- Begins a sequence or mapping at a column, if none stands there.  Its token goes behind so many
    others. -/
def beginBlock (column : Nat) (position : Nat) (t : Token) (l : Lexer) : Lexer :=
  if l.inFlow then l
  else
    let l :=
      match l.levels with
      | level :: levels =>
        if level.column ≤ column ∧ !level.isBlock then { l with levels } else l
      | [] => l
    if l.indent < (column : Int) then
      ({ l with levels := ⟨column, true⟩ :: l.levels }).insert position t
    else l

/-- Asks what follows to be further in than the sequence or mapping that it belongs to. -/
def indentMore (l : Lexer) : Lexer :=
  if !l.inFlow ∧ l.levels.head?.any (·.isBlock) then
    { l with levels := ⟨l.indent + 1, false⟩ :: l.levels }
  else l

/-! ## Keys -/

def saveKey (l : Lexer) : Lexer :=
  if !l.mayBeKey then l
  else
    let c := l.cursor
    let isRequired := !l.inFlow && l.indent = c.column && l.levels.head?.any (·.isBlock)
    { l with key := some ⟨isRequired, l.tokens.size, c.index, c.line, c.column⟩ }

/-- The last token that might have been a key is none, unless it must be one. -/
def dropKey? (l : Lexer) : Option Lexer :=
  if l.key.any (·.isRequired) then none else some { l with key := none }

/-- The largest number of characters from a key to its colon. -/
def keyLimit : Nat := 1024

/-- Outside brackets a key and its colon stand on one line. -/
def dropStaleKey? (l : Lexer) : Option Lexer :=
  let isStale (k : KeyPlace) : Bool :=
    k.line < l.cursor.line || k.index + keyLimit < l.cursor.index
  if !l.inFlow ∧ l.key.any isStale then l.dropKey? else some l

/-! ## Between tokens -/

/-- Goes to the next token past blanks, line ends and comments.  No tab may stand in the
    indentation in front of a token. -/
def passSpace? : (rounds : Nat) → Lexer → Option Lexer
  | 0, _ => none
  | rounds + 1, l =>
    let c := l.cursor
    match c.rest with
    | '\t' :: _ =>
      if !l.levels.isEmpty ∧ c.isLeading ∧ c.column < l.indent then do
        let c ← c.endLine?
        passSpace? rounds (l.moveTo c)
      else passSpace? rounds (l.moveTo (c.skip 1))
    | ' ' :: _ => passSpace? rounds (l.moveTo (c.skip 1))
    | '\n' :: _ =>
      passSpace? rounds { l with cursor := c.newLine, mayBeKey := l.mayBeKey || !l.inFlow }
    | '#' :: _ => passSpace? rounds (l.moveTo c.passLine)
    | _ => some l

/-- Goes past spaces, line ends and comments behind the mark of a key; a space or line end must be
    there, and no tab behind them. -/
def passKeySpace? (isPassed : Bool) : (rounds : Nat) → Lexer → Option Lexer
  | 0, _ => none
  | rounds + 1, l =>
    let c := l.cursor
    match c.rest with
    | ' ' :: _ => passKeySpace? true rounds (l.moveTo (c.skip 1))
    | '\n' :: _ =>
      passKeySpace? true rounds { l with cursor := c.newLine, mayBeKey := l.mayBeKey || !l.inFlow }
    | '#' :: _ => passKeySpace? isPassed rounds (l.moveTo c.passLine)
    | '\t' :: _ => none
    | _ => if isPassed then some l else none

def rounds (l : Lexer) : Nat :=
  l.cursor.rest.length + 1

/-! ## Documents -/

/-- The mark in front of a document or behind it. -/
def documentMark? (t : Token) (l : Lexer) : Option Lexer := do
  let l ← (l.unindent (-1)).dropKey?
  return ({ l with mayBeKey := false, cursor := l.cursor.pass startMark.length }).push t

/-- The mark behind a document, alone on its line. -/
def documentEnd? (l : Lexer) : Option Lexer := do
  let l ← l.documentMark? .documentEnd
  let c ← l.cursor.endLine?
  return l.moveTo c

def directive? (l : Lexer) : Option Lexer := do
  let l ← (l.unindent (-1)).dropKey?
  let (t, c) ← Tag.directive? l.cursor
  return ({ l with mayBeKey := false, cursor := c }).push t

/-! ## Brackets -/

/-- Ends an entry without braces. -/
def endPair (l : Lexer) : Lexer :=
  match l.pairs with
  | true :: pairs => ({ l with inBraces := false, pairs := false :: pairs }).push .braceClose
  | _ => l

/-- Goes past a mark and the blanks behind it. -/
def passMark? (l : Lexer) : Option Lexer := do
  let (_, c) ← (l.cursor.pass 1).passBlanks?
  return l.moveTo c

/-- A bracket or brace that opens. -/
def flowOpen? (isBrace : Bool) (l : Lexer) : Option Lexer := do
  let l := l.saveKey.indentMore
  if l.outerKeys.length = flowLimit then none
  else
    let l := { l with outerKeys := l.key :: l.outerKeys, key := none, mayBeKey := true }
    let l := if isBrace then { l with inBraces := true } else { l with pairs := false :: l.pairs }
    let l ← l.passMark?
    return l.push (if isBrace then .braceOpen else .bracketOpen)

/-- A bracket or brace that closes. -/
def flowClose? (isBrace : Bool) (l : Lexer) : Option Lexer := do
  let l ← l.dropKey?
  let l :=
    match l.outerKeys with
    | key :: outerKeys => { l with key, outerKeys, mayBeKey := false }
    | [] => { l with mayBeKey := false }
  let l :=
    if isBrace then l
    else
      let l := l.endPair
      { l with pairs := l.pairs.tail }
  let l ← l.passMark?
  let l := if l.inFlow then { l with adjacent := l.cursor.index } else l
  return l.push (if isBrace then .braceClose else .bracketClose)

def comma? (l : Lexer) : Option Lexer := do
  let l ← l.dropKey?
  let l ← ({ l with mayBeKey := true }).endPair.passMark?
  return l.push .comma

/-! ## Items and entries -/

/-- Whether a mark stands in front and a word ends behind it. -/
def isMark (mark : Char) (cs : List Char) : Bool :=
  cs.head? = some mark && endsWord (cs.drop 1)

def item? (l : Lexer) : Option Lexer := do
  let column := l.cursor.column
  let isNamed := column = 0 && l.margin = some l.tokens.size && -1 < l.indent
  if l.inFlow ∨ !l.mayBeKey ∨ isNamed then none
  else
    let l := l.beginBlock column l.tokens.size .sequenceStart
    let (blanks, c) ← (l.cursor.pass 1).passBlanks?
    if '\t' ∈ blanks ∧ isMark '-' c.rest then none
    else
      let isAlone := c.rest.head?.any fun d => d = '\n' || isFlowMark d
      let l := l.moveTo c
      let l ← (if isAlone then l.indentMore else l).dropKey?
      return ({ l with mayBeKey := true }).push .item

def key? (l : Lexer) : Option Lexer := do
  if !l.inFlow ∧ !l.mayBeKey then none
  else
    let l :=
      if l.inFlow then { l with inBraces := true }
      else l.beginBlock l.cursor.column l.tokens.size .mappingStart
    let l ← l.dropKey?
    let l := { l with mayBeKey := !l.inFlow, cursor := l.cursor.pass 1 }
    let l ← passKeySpace? false l.rounds l
    return l.push .key

/-- Goes past a colon.  If a tab follows it, no word may come after tabs alone. -/
def passColon? (c : Cursor) : Option Cursor := do
  let c := c.pass 1
  if c.rest.head? = some '\t' then
    let (blanks, c) ← c.passBlanks?
    if ' ' ∉ blanks ∧ c.rest.head?.any isWordChar then none else return c
  else return c

/-- The colon in front of a value.  The token that may be a key becomes one; otherwise a key is left
    out, or stands in front with a mark of its own. -/
def value? (l : Lexer) : Option Lexer := do
  let line := l.cursor.line
  let column := l.cursor.column
  let isPair := !l.pairs.isEmpty && !l.inBraces
  let l := if isPair then { l with pairs := true :: l.pairs.tail } else l
  let c ← passColon? l.cursor
  let l := l.moveTo c
  match l.key with
  | some k =>
    if isPair ∧ k.line < line then none
    else
      let l := l.insert k.position .key
      let l := if isPair then l.insert k.position .braceOpen else l
      let l := (l.beginBlock k.column k.position .mappingStart).indentMore
      return ({ l with key := none, mayBeKey := false }).push .value
  | none =>
    let l := if isPair then l.push .braceOpen else l
    if !l.inFlow ∧ !l.mayBeKey then none
    else
      let l := (l.beginBlock column l.tokens.size .mappingStart).indentMore
      return ({ l with mayBeKey := !l.inFlow }).push .value

/-! ## Names and scalars -/

/-- A name or tag in front of a node. -/
def property (t : Token) (c : Cursor) (l : Lexer) : Lexer :=
  let isFirst := l.cursor.column = 0
  let l := ({ l.saveKey with mayBeKey := false, cursor := c }).push t
  if isFirst then { l with margin := some l.tokens.size } else l

/-- A name, or what stands for one. -/
def name? (isAlias : Bool) (l : Lexer) : Option Lexer := do
  let (name, c) ← Tag.name? l.cursor
  if isAlias then return ({ l.saveKey with mayBeKey := false, cursor := c }).push (.alias name)
  else return l.property (.anchor name) c

def tag? (l : Lexer) : Option Lexer := do
  let (t, c) ← Tag.tag? l.inFlow l.cursor
  return l.property t c

def quoted? (l : Lexer) : Option Lexer := do
  let l := { l.saveKey with mayBeKey := false }
  let (cs, c) ← Quoted.scalar? l.inFlow l.indent l.cursor
  let l ← passSpace? (c.rest.length + 1) (l.moveTo c)
  return ({ l with adjacent := l.cursor.index }).push (.text cs)

def lines? (l : Lexer) : Option Lexer := do
  let l := l.saveKey.leaveLoose
  let (cs, c) ← Lines.scalar? l.indent l.cursor
  return ({ l with mayBeKey := true, cursor := c }).push (.text cs)

/-- A scalar without quotes. -/
def plain? (l : Lexer) : Option Lexer := do
  let l := l.saveKey.leaveLoose
  let (cs, c) ← Plain.scalar? l.inFlow (l.indent + 1) l.cursor
  return ({ l with mayBeKey := c.isLeading, cursor := c }).push (.plain cs)

/-! ## Texts -/

def isColon (l : Lexer) (rest : List Char) : Bool :=
  endsWord rest ||
    (l.inFlow && (rest.head?.any isFlowMark || l.cursor.index = l.adjacent))

def next? (l : Lexer) : Option Lexer :=
  let cs := l.cursor.rest
  let isFirst := l.cursor.column = 0
  if isFirst ∧ cs.head? = some '%' then l.directive?
  else if isFirst ∧ hasMark startMark cs then l.documentMark? .documentStart
  else if isFirst ∧ hasMark endMark cs then l.documentEnd?
  else if l.cursor.column < l.indent then none
  else
    match cs with
    | '[' :: _ => l.flowOpen? false
    | '\x7b' :: _ => l.flowOpen? true
    | ']' :: _ => l.flowClose? false
    | '\x7d' :: _ => l.flowClose? true
    | ',' :: _ => l.comma?
    | '-' :: rest => if endsWord rest then l.item? else l.plain?
    | '?' :: rest => if endsWord rest then l.key? else l.plain?
    | ':' :: rest => if l.isColon rest then l.value? else l.plain?
    | '*' :: _ => l.name? true
    | '&' :: _ => l.name? false
    | '!' :: _ => l.tag?
    | '|' :: _ => if l.inFlow then l.plain? else l.lines?
    | '>' :: _ => if l.inFlow then l.plain? else l.lines?
    | '\'' :: _ => l.quoted?
    | '"' :: _ => l.quoted?
    | '%' :: _ => none
    | '@' :: _ => none
    | '\x60' :: _ => none
    | _ => l.plain?

def finish? (l : Lexer) : Option (List Token) :=
  if (l.key :: l.outerKeys).any fun k => k.any (·.isRequired) then none
  else some (l.unindent (-1)).tokens.toList

def run? : (rounds : Nat) → Lexer → Option (List Token)
  | 0, _ => none
  | rounds + 1, l => do
    let l ← passSpace? l.rounds l
    let l ← l.dropStaleKey?
    let l := l.unindent l.cursor.column
    if l.cursor.rest.isEmpty then l.finish?
    else
      let l ← l.next?
      run? rounds l

end Lexer

def Token.ofText? (cs : List Char) : Option (List Token) :=
  let l : Lexer := { cursor := .ofText cs }
  Lexer.run? l.rounds l

end PeekLock.Yaml
