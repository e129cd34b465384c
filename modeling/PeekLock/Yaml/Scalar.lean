import PeekLock.Number.Limits
import PeekLock.Number.Shortest

/-! # YAML scalars

What a word stands for that has no quotes: nothing, a truth value, a number or else itself.  A tag
can ask for one of these.
-/

namespace PeekLock.Yaml

/-- A tag: a front that tells where it comes from, and a name. -/
structure Tag where
  front : String
  suffix : String
deriving DecidableEq, Repr

def Tag.core : String := "tag:yaml.org,2002:"

/-- A scalar. -/
inductive Scalar where
  | null
  /-- A word that is not of the kind that its tag asks for. -/
  | unfit
  | bool (b : Bool)
  | integer (n : Int)
  /-- A floating-point number as it is written. -/
  | real (word : List Char)
  | text (s : String)
deriving DecidableEq, Inhabited

/-- The value of a digit to a base up to sixteen. -/
def digit? (base : Nat) (c : Char) : Option Nat :=
  let n :=
    if '0' ≤ c ∧ c ≤ '9' then c.toNat - '0'.toNat
    else if 'a' ≤ c ∧ c ≤ 'f' then c.toNat - 'a'.toNat + 10
    else if 'A' ≤ c ∧ c ≤ 'F' then c.toNat - 'A'.toNat + 10
    else base
  if n < base then some n else none

def number? (base : Nat) (cs : List Char) : Option Nat :=
  cs.foldlM (fun n c => (digit? base c).map (n * base + ·)) 0

def digits? (base : Nat) (cs : List Char) : Option Nat :=
  if cs.isEmpty then none else number? base cs

/-- A sign at the front, and the characters after it. -/
def takeSign : List Char → Bool × List Char
  | '-' :: rest => (true, rest)
  | '+' :: rest => (false, rest)
  | cs => (false, cs)

/-- An integer of 64 bits to a base. -/
def integerOf? (base : Nat) (cs : List Char) : Option Int := do
  let (negative, ds) := takeSign cs
  let n ← digits? base ds
  let n : Int := if negative then -(n : Int) else n
  if minSigned64 ≤ n ∧ n ≤ maxSigned64 then some n else none

/-- An integer: decimal, or with a mark for its base. -/
def integer? (cs : List Char) : Option Int :=
  match cs with
  | '0' :: 'x' :: rest => integerOf? 16 rest
  | '0' :: 'o' :: rest => integerOf? 8 rest
  | '+' :: rest => integerOf? 10 rest
  | _ => integerOf? 10 cs

/-- The exponent behind its mark. -/
def exponent? (cs : List Char) : Option Int := do
  let (negative, ds) := takeSign cs
  let n ← digits? 10 ds
  return if negative then -(n : Int) else n

/-- A floating-point number; one side of its point may be empty. -/
def real? (cs : List Char) : Option Float := do
  let (negative, body) := takeSign cs
  let word := body.map Char.toLower
  let signed (x : Float) : Float := if negative then -x else x
  if word = "inf".toList ∨ word = "infinity".toList then return signed (1.0 / 0.0)
  else if word = "nan".toList then return 0.0 / 0.0
  else
    let (mantissa, mark) := word.span (· ≠ 'e')
    let (whole, point) := mantissa.span (· ≠ '.')
    let places := point.drop 1
    if whole.isEmpty ∧ places.isEmpty then none
    else
      let n ← number? 10 (whole ++ places)
      let e ←
        match mark with
        | [] => some 0
        | _ :: rest => exponent? rest
      return signed (realOfDecimal n (e - places.length))

/-- The words for the numbers without bound and for what is no number. -/
def isSpecial (cs : List Char) : Bool :=
  let (_, body) := takeSign cs
  [".inf", ".Inf", ".INF"].contains (String.ofList body) ||
    [".nan", "NaN", ".NAN"].contains (String.ofList cs)

/-- Whether a word is written as a floating-point number.  One without digits is no number, but for
    the special words. -/
def isReal (cs : List Char) : Bool :=
  isSpecial cs || (cs.any Char.isDigit && (real? cs).isSome)

namespace Scalar

/-- What a word without quotes stands for. -/
def ofWord (cs : List Char) : Scalar :=
  match integer? cs with
  | some n => .integer n
  | none =>
    let word := String.ofList cs
    if word = "~" ∨ word = "null" then .null
    else if ["true", "True", "TRUE"].contains word then .bool true
    else if ["false", "False", "FALSE"].contains word then .bool false
    else if isReal cs then .real cs
    else .text word

/-- What a word without quotes stands for under a tag.  The tags that every text knows ask for a
    kind of word; under any other it is a text. -/
def ofTagged (tag : Tag) (cs : List Char) : Scalar :=
  let word := String.ofList cs
  if tag.front ≠ Tag.core then .text word
  else
    match tag.suffix with
    | "bool" =>
      if word = "true" then .bool true
      else if word = "false" then .bool false
      else .unfit
    | "int" => ((integerOf? 10 cs).map integer).getD .unfit
    | "float" => if isReal cs then .real cs else .unfit
    | "null" => if word = "~" ∨ word = "null" then .null else .unfit
    | _ => .text word

/-- Whether a scalar can be a value: of the special numbers there are none. -/
def isValue : Scalar → Bool
  | .real cs => (real? cs).isSome
  | _ => true

def keyText? : Scalar → Option String
  | .null | .unfit => none
  | .bool b => some (if b then "true" else "false")
  | .integer n => some (toString n)
  | .real cs => some (String.ofList cs)
  | .text s => some s

end Scalar

end PeekLock.Yaml
