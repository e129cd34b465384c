import PeekLock.Yaml.Scalar
import PeekLock.Yaml.Token

/-! # YAML nodes

What a text says before its aliases are followed: scalars, sequences and mappings with the names
and tags in front of them.  `Node.ofTokens?` reads the only document of a text.
-/

namespace PeekLock.Yaml

/-- What may stand in front of a node. -/
structure Properties where
  anchor : Option String := none
  tag : Option Tag := none
deriving DecidableEq, Repr, Inhabited

/-- A node. -/
inductive Node where
  | alias (name : String)
  /-- A word without quotes. -/
  | plain (properties : Properties) (word : List Char)
  /-- A scalar in quotes, or a block of lines. -/
  | text (properties : Properties) (s : String)
  | sequence (properties : Properties) (items : List Node)
  | mapping (properties : Properties) (entries : List (Node × Node))
deriving Inhabited

abbrev Handles : Type := List (String × String)

abbrev Reader (α : Type) := List Token → Option (α × List Token)

namespace Node

def missing : Node :=
  .plain {} ['~']

/-! ## Properties -/

/-- The tag of a handle and a suffix.  Only handles of one exclamation mark, and those of two, need
    no declaration. -/
def tag? (handles : Handles) (handle suffix : String) : Option Tag :=
  match handles.lookup handle with
  | some front => some ⟨front, suffix⟩
  | none =>
    if handle = "!!" then some ⟨Tag.core, suffix⟩
    else if handle.length < 2 then some ⟨handle, suffix⟩
    else none

/-- A name and a tag, in either order, if they are there. -/
def properties? (handles : Handles) : Reader Properties
  | .anchor a :: .tag h s :: rest => (tag? handles h s).map fun t => (⟨some a, some t⟩, rest)
  | .tag h s :: .anchor a :: rest => (tag? handles h s).map fun t => (⟨some a, some t⟩, rest)
  | .anchor a :: rest => some (⟨some a, none⟩, rest)
  | .tag h s :: rest => (tag? handles h s).map fun t => (⟨none, some t⟩, rest)
  | ts => some ({}, ts)

/-! ## Nodes -/

/-- Where a node stands. -/
inductive Place where
  /-- Between brackets. -/
  | flow
  /-- On lines of its own. -/
  | block
  /-- In an entry on lines of its own, where a sequence need not be further in than its key. -/
  | entry
deriving DecidableEq, Repr

/-- Whether no key or value follows inside a mapping on lines of its own. -/
def endsEntryPart : List Token → Bool
  | .key :: _ | .value :: _ | .blockEnd :: _ => true
  | _ => false

/-- Whether no item follows inside a sequence on lines of its own. -/
def endsItem : List Token → Bool
  | .item :: _ | .blockEnd :: _ => true
  | _ => false

/-- Whether no value follows between brackets that close so. -/
def endsFlowValue (closing : Token) : List Token → Bool
  | .comma :: _ => true
  | t :: _ => t = closing
  | [] => false

/-- Goes past the comma in front of an entry that is not the first. -/
def passComma? (isFirst : Bool) : List Token → Option (List Token)
  | .comma :: rest => if isFirst then some (.comma :: rest) else some rest
  | ts => if isFirst then some ts else none

mutual

def read? (handles : Handles) (place : Place) : (rounds : Nat) → Reader Node
  | 0, _ => none
  | rounds + 1, ts =>
    match ts with
    | .alias name :: rest => some (.alias name, rest)
    | ts => do
      let (p, ts) ← properties? handles ts
      match ts, place with
      | .item :: _, .entry => do
        let (items, rest) ← looseItems? handles rounds ts
        return (.sequence p items, rest)
      | .plain word :: rest, _ => return (.plain p word, rest)
      | .text cs :: rest, _ => return (.text p (String.ofList cs), rest)
      | .bracketOpen :: rest, _ => do
        let (items, rest) ← flowItems? handles true rounds rest
        return (.sequence p items, rest)
      | .braceOpen :: rest, _ => do
        let (entries, rest) ← flowEntries? handles true rounds rest
        return (.mapping p entries, rest)
      | .sequenceStart :: rest, .block | .sequenceStart :: rest, .entry => do
        let (items, rest) ← blockItems? handles rounds rest
        return (.sequence p items, rest)
      | .mappingStart :: rest, .block | .mappingStart :: rest, .entry => do
        let (entries, rest) ← blockEntries? handles rounds rest
        return (.mapping p entries, rest)
      | ts, _ => if p = {} then none else return (.plain p [], ts)

def blockItems? (handles : Handles) : (rounds : Nat) → Reader (List Node)
  | 0, _ => none
  | rounds + 1, ts =>
    match ts with
    | .blockEnd :: rest => some ([], rest)
    | .item :: rest => do
      let (node, rest) ←
        if endsItem rest then some (missing, rest) else read? handles .block rounds rest
      let (nodes, rest) ← blockItems? handles rounds rest
      return (node :: nodes, rest)
    | _ => none

/-- The items of a sequence at the indentation of its key. -/
def looseItems? (handles : Handles) : (rounds : Nat) → Reader (List Node)
  | 0, _ => none
  | rounds + 1, ts =>
    match ts with
    | .item :: rest => do
      let (node, rest) ←
        if endsItem rest || endsEntryPart rest then some (missing, rest)
        else read? handles .block rounds rest
      let (nodes, rest) ← looseItems? handles rounds rest
      return (node :: nodes, rest)
    | ts => some ([], ts)

/-- The entries of a mapping on lines of its own.  A key or a value may be left out. -/
def blockEntries? (handles : Handles) : (rounds : Nat) → Reader (List (Node × Node))
  | 0, _ => none
  | rounds + 1, ts =>
    match ts with
    | .blockEnd :: rest => some ([], rest)
    | .key :: rest => do
      let (key, rest) ←
        if endsEntryPart rest then some (missing, rest) else read? handles .entry rounds rest
      let (v, rest) ← blockValue? handles rounds rest
      let (entries, rest) ← blockEntries? handles rounds rest
      return ((key, v) :: entries, rest)
    | .value :: _ => do
      let (v, rest) ← blockValue? handles rounds ts
      let (entries, rest) ← blockEntries? handles rounds rest
      return ((missing, v) :: entries, rest)
    | _ => none

def blockValue? (handles : Handles) : (rounds : Nat) → Reader Node
  | 0, _ => none
  | rounds + 1, ts =>
    match ts with
    | .value :: rest =>
      if endsEntryPart rest then some (missing, rest) else read? handles .entry rounds rest
    | ts => some (missing, ts)

/-- The items between square brackets.  A key among them begins a mapping of one entry; where a
    comma or bracket stands in place of that key, it goes with it. -/
def flowItems? (handles : Handles) (isFirst : Bool) : (rounds : Nat) → Reader (List Node)
  | 0, _ => none
  | rounds + 1, ts =>
    match ts with
    | .bracketClose :: rest => some ([], rest)
    | ts => do
      let ts ← passComma? isFirst ts
      match ts with
      | .bracketClose :: rest => return ([], rest)
      | .key :: rest => do
        let (key, rest) ←
          match rest with
          | .value :: rest => some (missing, rest)
          | .comma :: rest => some (missing, rest)
          | .bracketClose :: rest => some (missing, rest)
          | rest => read? handles .flow rounds rest
        let (v, rest) ← flowValue? handles .bracketClose rounds rest
        let (nodes, rest) ← flowItems? handles false rounds rest
        return (.mapping {} [(key, v)] :: nodes, rest)
      | ts => do
        let (node, rest) ← read? handles .flow rounds ts
        let (nodes, rest) ← flowItems? handles false rounds rest
        return (node :: nodes, rest)

def flowEntries? (handles : Handles) (isFirst : Bool) :
    (rounds : Nat) → Reader (List (Node × Node))
  | 0, _ => none
  | rounds + 1, ts =>
    match ts with
    | .braceClose :: rest => some ([], rest)
    | ts => do
      let ts ← passComma? isFirst ts
      match ts with
      | .braceClose :: rest => return ([], rest)
      | .key :: rest => do
        let (key, rest) ←
          match rest with
          | .value :: _ => some (missing, rest)
          | rest =>
            if endsFlowValue .braceClose rest then some (missing, rest)
            else read? handles .flow rounds rest
        let (v, rest) ← flowValue? handles .braceClose rounds rest
        let (entries, rest) ← flowEntries? handles false rounds rest
        return ((key, v) :: entries, rest)
      | .value :: _ => do
        let (v, rest) ← flowValue? handles .braceClose rounds ts
        let (entries, rest) ← flowEntries? handles false rounds rest
        return ((missing, v) :: entries, rest)
      | ts => do
        let (key, rest) ← read? handles .flow rounds ts
        let (entries, rest) ← flowEntries? handles false rounds rest
        return ((key, missing) :: entries, rest)

def flowValue? (handles : Handles) (closing : Token) : (rounds : Nat) → Reader Node
  | 0, _ => none
  | rounds + 1, ts =>
    match ts with
    | .value :: rest =>
      if endsFlowValue closing rest then some (missing, rest)
      else read? handles .flow rounds rest
    | ts => some (missing, ts)

end

/-! ## Documents -/

/-- The handles that directives declare, and what follows the directives: a version comes at most
    once, and of the handles the last directive alone tells. -/
def directives? (handles : Handles) (isVersioned : Bool) : Reader Handles
  | .version :: rest => if isVersioned then none else directives? [] true rest
  | .handle name value :: rest => directives? [(name, value)] isVersioned rest
  | ts => some (handles, ts)

/-- Whether a document has no node. -/
def endsDocument : List Token → Bool
  | [] => true
  | .documentStart :: _ | .documentEnd :: _ | .version :: _ | .handle .. :: _ => true
  | _ => false

/-- The node of a document.  Directives need the mark in front of the document. -/
def document? (ts : List Token) : Option (Node × List Token) := do
  let (handles, rest) ← directives? [] false ts
  let rounds := 2 * ts.length + 4
  match rest with
  | .documentStart :: rest =>
    if endsDocument rest then return (missing, rest) else read? handles .block rounds rest
  | _ => if endsDocument ts then none else read? [] .block rounds ts

/-- Whether a token is the mark behind a document. -/
def isDocumentEnd (t : Token) : Bool :=
  t = .documentEnd

/-- The node of the only document, if there is a document. -/
def ofTokens? (ts : List Token) : Option (Option Node) := do
  let ts := ts.dropWhile isDocumentEnd
  if ts.isEmpty then return none
  else
    let (node, rest) ← document? ts
    if rest.all isDocumentEnd then return some node else none

end Node

end PeekLock.Yaml
