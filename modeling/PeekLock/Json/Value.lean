import PeekLock.Keyed
import PeekLock.Number.Shortest
import PeekLock.Text.Utf8

/-! # JSON values and their text

Values of the data format, with integers kept apart from binary floating-point numbers, and the one
text that is written for each: no blanks, members in the order they are held in,
and only those characters escaped that have to be.
-/

namespace PeekLock

/-- A JSON value.  Members are held in key order unless a writer puts them otherwise. -/
inductive Json where
  | null
  | bool (b : Bool)
  | integer (n : Int)
  | real (x : Float)
  | text (s : String)
  | array (items : List Json)
  | object (members : List (String × Json))
deriving Inhabited, BEq

namespace Json

/-- A member of an object, if the value is one and has it. -/
def get? (key : String) : Json → Option Json
  | .object members => Keyed.get? key members
  | _ => none

/-! ## Writing -/

def hexDigit (n : Nat) : Char :=
  "0123456789abcdef".toList.getD n '0'

def escape (c : Char) : List Char :=
  match c with
  | '"' => ['\\', '"']
  | '\\' => ['\\', '\\']
  | '\x08' => ['\\', 'b']
  | '\x0c' => ['\\', 'f']
  | '\n' => ['\\', 'n']
  | '\r' => ['\\', 'r']
  | '\t' => ['\\', 't']
  | c =>
    if c.toNat < 0x20 then
      ['\\', 'u', '0', '0', hexDigit (c.toNat / 16), hexDigit (c.toNat % 16)]
    else [c]

/-- A text as a JSON string. -/
def quoteChars (s : String) : List Char :=
  '"' :: s.toList.flatMap escape ++ ['"']

def integerChars : Int → List Char
  | .ofNat n => digitChars n
  | .negSucc n => '-' :: digitChars (n + 1)

/-- The decimal point stands inside the digits or after at most five zeros up to sixteen
    places; otherwise an exponent is written.  A whole number keeps a zero behind its
    point, and what is no number at all is written as null. -/
def realChars (x : Float) : List Char :=
  if x.isNaN || x.isInf then ['n', 'u', 'l', 'l']
  else if x == 0 then signChars x ++ ['0', '.', '0']
  else
    let d := shortestDecimal x
    let k := ((digitChars d.digits).length : Int) + d.exponent
    let magnitude :=
      if 0 ≤ d.exponent ∧ k ≤ 16 then d.positional ++ ['.', '0']
      else if -5 < k ∧ k ≤ 16 then d.positional
      else d.scientific
    signChars x ++ magnitude

def joinChars (separator : List Char) : List (List Char) → List Char
  | [] => []
  | [piece] => piece
  | piece :: rest => piece ++ separator ++ joinChars separator rest

mutual

def chars : Json → List Char
  | .null => ['n', 'u', 'l', 'l']
  | .bool true => ['t', 'r', 'u', 'e']
  | .bool false => ['f', 'a', 'l', 's', 'e']
  | .integer n => integerChars n
  | .real x => realChars x
  | .text s => quoteChars s
  | .array items => '[' :: joinChars [','] (itemsChars items) ++ [']']
  | .object members => '\x7b' :: joinChars [','] (membersChars members) ++ ['\x7d']

def itemsChars : List Json → List (List Char)
  | [] => []
  | item :: rest => chars item :: itemsChars rest

def membersChars : List (String × Json) → List (List Char)
  | [] => []
  | (key, value) :: rest => (quoteChars key ++ ':' :: chars value) :: membersChars rest

end

def render (v : Json) : String :=
  String.ofList v.chars

def octets (v : Json) : Octets :=
  Utf8.encodeChars v.chars

end Json

end PeekLock
