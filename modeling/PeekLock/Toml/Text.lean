/-! # Texts in TOML

A text has four written forms: with or without escapes, and on one line or on several.  The
one chosen is the first that holds the text without any escape; only where no form does,
characters are escaped.
-/

namespace PeekLock.Toml

/-- A written form of a text. -/
structure TextForm where
  /-- Whether a backslash begins an escape. -/
  escapes : Bool
  /-- Whether the text may run over several lines. -/
  multiline : Bool
deriving DecidableEq, Repr

def longestRun (c : Char) (cs : List Char) : Nat :=
  go 0 0 cs
where
  /-- The run that ends here, and the longest so far. -/
  go (current longest : Nat) : List Char → Nat
    | [] => longest
    | d :: rest =>
      if d = c then go (current + 1) (max longest (current + 1)) rest
      else go 0 longest rest

def isControl (c : Char) : Bool :=
  (c.toNat < 0x20 && c ≠ '\t' && c ≠ '\n') || c.toNat = 0x7F

/-- Whether a form holds the characters without any escape. -/
def TextForm.holds (f : TextForm) (cs : List Char) : Bool :=
  let quote := if f.escapes then '"' else '\''
  let run := longestRun quote cs
  !cs.any isControl && !(f.escapes && cs.contains '\\') &&
    (if f.multiline then run ≤ 2 else run = 0 && !cs.contains '\n')

def TextForm.choose (cs : List Char) : TextForm :=
  let forms : List TextForm := [⟨true, false⟩, ⟨false, false⟩, ⟨true, true⟩, ⟨false, true⟩]
  (forms.find? (·.holds cs)).getD ⟨true, cs.contains '\n'⟩

def hexDigit (n : Nat) : Char :=
  "0123456789ABCDEF".toList.getD n '0'

/-- A character by its escape, if it has to have one.  Quotes are not looked at. -/
def escape? (multiline : Bool) (c : Char) : Option (List Char) :=
  match c with
  | '\x08' => some ['\\', 'b']
  | '\t' => some ['\\', 't']
  | '\n' => if multiline then none else some ['\\', 'n']
  | '\x0c' => some ['\\', 'f']
  | '\r' => some ['\\', 'r']
  | '\\' => some ['\\', '\\']
  | c =>
    if isControl c then
      some ['\\', 'u', '0', '0', hexDigit (c.toNat / 16), hexDigit (c.toNat % 16)]
    else none

/-- The characters between the delimiters of a form with escapes.  A quote is escaped
    where it would be one more in a row than the form holds; `quotes` counts them. -/
def escapeChars (multiline : Bool) (quotes : Nat) : List Char → List Char
  | [] => []
  | c :: rest =>
    if c = '"' then
      if quotes < (if multiline then 2 else 0) then '"' :: escapeChars multiline (quotes + 1) rest
      else '\\' :: '"' :: escapeChars multiline 0 rest
    else
      match escape? multiline c with
      | some escaped => escaped ++ escapeChars multiline 0 rest
      | none => c :: escapeChars multiline 0 rest

/-- Characters in a form, between its delimiters.  A text of several lines begins on a line
    of its own. -/
def TextForm.write (f : TextForm) (cs : List Char) : List Char :=
  let quote := if f.escapes then '"' else '\''
  let delimiter := List.replicate (if f.multiline then 3 else 1) quote
  let opening := if f.multiline && cs.contains '\n' then delimiter ++ ['\n'] else delimiter
  let body := if f.escapes then escapeChars f.multiline 0 cs else cs
  opening ++ body ++ delimiter

/-- A text as TOML. -/
def quoteChars (s : String) : List Char :=
  (TextForm.choose s.toList).write s.toList

end PeekLock.Toml
