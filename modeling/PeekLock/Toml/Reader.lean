import PeekLock.Toml.Value

/-! # Reading TOML

A text is a sequence of statements, one a line: a key with its value, the header of a table, or
the header of one more table of an array.  `Toml.parse` gives the entries at the top
level, and nothing for a text that breaks the grammar or names a thing twice.  What exactly is
wrong is not told.
-/

namespace PeekLock.Toml

abbrev Scan (α : Type) := List Char → Option (α × List Char)

/-- A control character that may stand nowhere in a line. -/
def isForbidden (c : Char) : Bool :=
  (c.toNat < 0x20 && c ≠ '\t') || c.toNat = 0x7F

def isBlank (c : Char) : Bool :=
  c = ' ' || c = '\t'

/-- The characters from the first one on that is no blank. -/
def skipBlanks (cs : List Char) : List Char :=
  cs.dropWhile isBlank

/-! ## Between statements -/

/-- The end of a line, and the lines after it: a comment may stand in front of it. -/
def endLine (inComment : Bool) : List Char → Option (List Char)
  | [] => some []
  | '\n' :: rest => some rest
  | '\r' :: '\n' :: rest => some rest
  | c :: rest =>
    if inComment then (if isForbidden c then none else endLine true rest)
    else if isBlank c then endLine false rest
    else if c = '#' then endLine true rest
    else none

def skipLines (inComment : Bool) : List Char → Option (List Char)
  | [] => some []
  | '\n' :: rest => skipLines false rest
  | '\r' :: '\n' :: rest => skipLines false rest
  | c :: rest =>
    if inComment then (if isForbidden c then none else skipLines true rest)
    else if isBlank c then skipLines false rest
    else if c = '#' then skipLines true rest
    else some (c :: rest)

/-! ## Texts -/

/-- The character of a code point given by its digits to base sixteen. -/
def codePoint? (digits : List Char) : Option Char := do
  let values ← digits.mapM (digit? 16)
  let n := values.foldl (fun n d => n * 16 + d) 0
  if n < 0xD800 ∨ (0xDFFF < n ∧ n ≤ 0x10FFFF) then return Char.ofNat n else none

/-- An escape behind its backslash. -/
def unescape? : Scan Char
  | 'b' :: rest => some ('\x08', rest)
  | 't' :: rest => some ('\t', rest)
  | 'n' :: rest => some ('\n', rest)
  | 'f' :: rest => some ('\x0c', rest)
  | 'r' :: rest => some ('\r', rest)
  | 'e' :: rest => some ('\x1b', rest)
  | '"' :: rest => some ('"', rest)
  | '\\' :: rest => some ('\\', rest)
  | 'x' :: rest => coded 2 rest
  | 'u' :: rest => coded 4 rest
  | 'U' :: rest => coded 8 rest
  | _ => none
where
  /-- A code point of so many digits. -/
  coded (count : Nat) (cs : List Char) : Option (Char × List Char) := do
    if cs.length < count then none
    else
      let c ← codePoint? (cs.take count)
      return (c, cs.drop count)

/-- The contents of a text on one line with escapes, up to its closing quote.  Every round takes at
    least one character. -/
def basicBody (seen : List Char) : (rounds : Nat) → Scan (List Char)
  | 0, _ => none
  | _ + 1, [] => none
  | rounds + 1, c :: rest =>
    if c = '"' then some (seen.reverse, rest)
    else if c = '\\' then do
      let (e, rest) ← unescape? rest
      basicBody (e :: seen) rounds rest
    else if isForbidden c then none
    else basicBody (c :: seen) rounds rest

/-- The contents of a text on one line without escapes, up to its closing quote. -/
def literalBody (seen : List Char) : Scan (List Char)
  | [] => none
  | c :: rest =>
    if c = '\'' then some (seen.reverse, rest)
    else if isForbidden c then none
    else literalBody (c :: seen) rest

def skipFold : List Char → List Char
  | '\r' :: '\n' :: rest => skipFold rest
  | c :: rest => if isBlank c || c = '\n' then skipFold rest else c :: rest
  | [] => []

/-- Passes the rest of a line that ends in a backslash, and the blanks of the lines after it. -/
def foldLine? (cs : List Char) : Option (List Char) :=
  match skipBlanks cs with
  | '\n' :: rest => some (skipFold rest)
  | '\r' :: '\n' :: rest => some (skipFold rest)
  | _ => none

/-- The closing delimiter: three quotes, with up to two quotes of the contents in front of them. -/
def closing? (quote : Char) (cs : List Char) : Option (List Char × List Char) :=
  let run := (cs.takeWhile (· = quote)).length
  if run < 3 then none
  else
    let kept := min run 5 - 3
    some (List.replicate kept quote, cs.drop (kept + 3))

/-- The contents of a text on several lines, up to its closing delimiter. -/
def multilineBody (quote : Char) (seen : List Char) : (rounds : Nat) → Scan (List Char)
  | 0, _ => none
  | _ + 1, [] => none
  | rounds + 1, c :: rest =>
    match closing? quote (c :: rest) with
    | some (quotes, rest) => some (seen.reverse ++ quotes, rest)
    | none =>
      if c = '\\' ∧ quote = '"' then
        match foldLine? rest with
        | some rest => multilineBody quote seen rounds rest
        | none => do
          let (e, rest) ← unescape? rest
          multilineBody quote (e :: seen) rounds rest
      else if c = '\n' then multilineBody quote ('\n' :: seen) rounds rest
      else if c = '\r' then
        match rest with
        | '\n' :: rest => multilineBody quote ('\n' :: '\r' :: seen) rounds rest
        | _ => none
      else if isForbidden c then none
      else multilineBody quote (c :: seen) rounds rest

/-- Passes a line end right behind an opening delimiter. -/
def skipFirstNewline : List Char → List Char
  | '\n' :: rest => rest
  | '\r' :: '\n' :: rest => rest
  | cs => cs

def text? : Scan (List Char)
  | '"' :: '"' :: '"' :: rest =>
    let rest := skipFirstNewline rest
    multilineBody '"' [] (rest.length + 1) rest
  | '\'' :: '\'' :: '\'' :: rest =>
    let rest := skipFirstNewline rest
    multilineBody '\'' [] (rest.length + 1) rest
  | '"' :: rest => basicBody [] (rest.length + 1) rest
  | '\'' :: rest => literalBody [] rest
  | _ => none

/-! ## Keys -/

/-- A character of a key without quotes. -/
def isKeyChar (c : Char) : Bool :=
  ('a' ≤ c && c ≤ 'z') || ('A' ≤ c && c ≤ 'Z') || ('0' ≤ c && c ≤ '9') || c = '_' || c = '-'

/-- One part of a key: bare, or a text on one line. -/
def keyPart? (cs : List Char) : Option (String × List Char) :=
  match cs with
  | '"' :: rest => do
    let (s, rest) ← basicBody [] (rest.length + 1) rest
    return (String.ofList s, rest)
  | '\'' :: rest => do
    let (s, rest) ← literalBody [] rest
    return (String.ofList s, rest)
  | _ =>
    let (word, rest) := cs.span isKeyChar
    if word.isEmpty then none else some (String.ofList word, rest)

/-- Parts of a key with dots between them and blanks around each, so many at most. -/
def keyParts? : (limit : Nat) → Scan (List String)
  | 0, _ => none
  | limit + 1, cs => do
    let (part, rest) ← keyPart? (skipBlanks cs)
    match skipBlanks rest with
    | '.' :: rest => do
      let (parts, rest) ← keyParts? limit rest
      return (part :: parts, rest)
    | rest => return ([part], rest)

/-- The parts that a key may have, and the levels of brackets that a value may have. -/
def maxDepth : Nat := 80

def key? : Scan (List String) :=
  keyParts? maxDepth

/-! ## Values -/

/-- A character of a word that is no text. -/
def isWordChar (c : Char) : Bool :=
  isKeyChar c || c = '+' || c = '.' || c = ':'

/-- A truth value, a number, a date or a time.  A single space may stand between a date and a
    time. -/
def scalar? (cs : List Char) : Option (Value × List Char) :=
  let (word, rest) := cs.span isWordChar
  match rest with
  | ' ' :: a :: b :: ':' :: _ =>
    if (date? word).any (·.2.isEmpty) ∧ a.isDigit ∧ b.isDigit then
      let (time, rest) := (rest.drop 1).span isWordChar
      (word? (word ++ ' ' :: time)).map (·, rest)
    else (word? word).map (·, rest)
  | _ => (word? word).map (·, rest)

/-- The items of an array behind its bracket, the first ones already read. -/
def items? (item : Scan Value) (seen : List Value) : (rounds : Nat) → Scan Value
  | 0, _ => none
  | rounds + 1, cs => do
    match ← skipLines false cs with
    | ']' :: rest => return (.array seen.reverse, rest)
    | cs =>
      let (v, rest) ← item cs
      match ← skipLines false rest with
      | ',' :: rest => items? item (v :: seen) rounds rest
      | ']' :: rest => return (.array (v :: seen).reverse, rest)
      | _ => none

/-- The members of an inline table behind its brace, with those already read. -/
def members? (item : Scan Value) (entries : Entries) : (rounds : Nat) → Scan Value
  | 0, _ => none
  | rounds + 1, cs => do
    match ← skipLines false cs with
    | '\x7d' :: rest => return (.table .inline entries, rest)
    | cs =>
      let (path, rest) ← key? cs
      let '=' :: rest := rest | none
      let (v, rest) ← item (skipBlanks rest)
      let entries ← entries.assign v path
      match ← skipLines false rest with
      | ',' :: rest => members? item entries rounds rest
      | '\x7d' :: rest => return (.table .inline entries, rest)
      | _ => none

def value? : (depth : Nat) → Scan Value
  | 0, _ => none
  | depth + 1, cs =>
    match cs with
    | '[' :: rest => items? (value? depth) [] (rest.length + 1) rest
    | '\x7b' :: rest => members? (value? depth) [] (rest.length + 1) rest
    | '"' :: _ => do
      let (s, rest) ← text? cs
      return (.text (String.ofList s), rest)
    | '\'' :: _ => do
      let (s, rest) ← text? cs
      return (.text (String.ofList s), rest)
    | _ => scalar? cs

/-! ## Statements -/

/-- A line of the text. -/
inductive Statement where
  | assign (path : List String) (v : Value)
  | openTable (path : List String)
  | addTable (path : List String)

/-- A statement up to its last character. -/
def statement? (cs : List Char) : Option (Statement × List Char) :=
  match cs with
  | '[' :: '[' :: rest => do
    let (path, rest) ← key? rest
    let ']' :: ']' :: rest := rest | none
    return (.addTable path, rest)
  | '[' :: rest => do
    let (path, rest) ← key? rest
    let ']' :: rest := rest | none
    return (.openTable path, rest)
  | _ => do
    let (path, rest) ← key? cs
    let '=' :: rest := rest | none
    let (v, rest) ← value? (maxDepth + 1) (skipBlanks rest)
    return (.assign path v, rest)

/-- All entries, and the path of the table that was opened last. -/
structure Document where
  entries : Entries
  header : List String

/-- The entries after a statement. -/
def Document.add (d : Document) : Statement → Option Document
  | .assign path v => do
    let entries ← d.entries.assignUnder d.header path v
    return { d with entries := entries }
  | .openTable path => do
    let entries ← d.entries.openTable path
    return ⟨entries, path⟩
  | .addTable path => do
    let entries ← d.entries.addTable path
    return ⟨entries, path⟩

/-- Reads all statements.  Every round takes at least one character. -/
def statements? (d : Document) : (rounds : Nat) → List Char → Option Document
  | 0, _ => none
  | rounds + 1, cs => do
    match ← skipLines false cs with
    | [] => return d
    | cs =>
      let (s, rest) ← statement? cs
      let d ← d.add s
      let rest ← endLine false rest
      statements? d rounds rest

def parse (cs : List Char) : Option Entries := do
  let d ← statements? ⟨[], []⟩ (cs.length + 1) cs
  return d.entries

end PeekLock.Toml
