import PeekLock.Number.Limits

/-! # Shortest decimals

The decimal with the fewest digits that reads back as a given binary
floating-point number, and of those the nearest.  All arithmetic is exact: a finite
number is `significand * 2 ^ exponent`, and the reals that round to it form an interval
whose ends are again of this form.
-/

namespace PeekLock

/-- The decimal `digits * 10 ^ exponent`. -/
structure Decimal where
  digits : Nat
  exponent : Int
deriving DecidableEq, Repr

/-- The floating-point number nearest to `digits * 10 ^ exponent`. -/
def realOfDecimal (digits : Nat) (exponent : Int) : Float :=
  Float.ofScientific digits (exponent < 0) exponent.natAbs

/-- A positive binary number `significand * 2 ^ exponent`.  `narrowBelow` marks the
    powers of two, whose lower neighbour is twice as near as the upper one. -/
structure Binary where
  significand : Nat
  exponent : Int
  narrowBelow : Bool
deriving DecidableEq, Repr

namespace Binary

/-- The bit in front of the fraction that is not written, 2 to the power of 52. -/
def hiddenBit : Nat := 4503599627370496

def ofBits (bits : UInt64) : Binary :=
  let fraction : Nat := bits.toNat % hiddenBit
  let biased : Nat := bits.toNat / hiddenBit % 2048
  if biased = 0 then
    ⟨fraction, -1074, false⟩
  else
    ⟨hiddenBit + fraction, (biased : Int) - 1075, fraction = 0 && 1 < biased⟩

/-- The number, and the ends of the interval that rounds to it, in units of a quarter
    of the last place. -/
def quarters (b : Binary) : Nat × Nat × Nat :=
  let v := 4 * b.significand
  (if b.narrowBelow then v - 1 else v - 2, v, v + 2)

/-- The number and its interval measured in units of `10 ^ unit`, as numerators over one
    denominator. -/
def scaled (b : Binary) (unit : Int) : (Nat × Nat × Nat) × Nat :=
  let (lo, v, hi) := b.quarters
  let q := b.exponent - 2
  let up := Nat.pow 2 q.toNat * Nat.pow 10 (-unit).toNat
  let down := Nat.pow 2 (-q).toNat * Nat.pow 10 unit.toNat
  ((lo * up, v * up, hi * up), down)

/-- The place of the decimal point: the least `k`, among those that the binary
    exponent leaves, with the number below `10 ^ k`. -/
def magnitude (b : Binary) : Int :=
  let bits := (Nat.log2 b.significand : Int) + b.exponent
  let estimate := Int.fdiv (bits * 30103) 100000
  let candidates := [estimate - 1, estimate, estimate + 1, estimate + 2]
  let below (k : Int) : Bool :=
    let ((_, v, _), down) := b.scaled k
    v < down
  (candidates.find? below).getD (estimate + 2)

/-- The nearest point of the grid with `n` digits, if it reads back as the number.  An
    exact tie goes to the even digit. -/
def onGrid? (b : Binary) (k : Int) (n : Nat) : Option Decimal :=
  let unit := k - n
  let ((lo, v, hi), down) := b.scaled unit
  let even := b.significand % 2 = 0
  let inside (c : Nat) : Bool :=
    if even then lo ≤ c * down && c * down ≤ hi else lo < c * down && c * down < hi
  let c := v / down
  let rest := v % down
  let nearest :=
    if 2 * rest < down ∨ (2 * rest = down ∧ c % 2 = 0) then [c, c + 1] else [c + 1, c]
  (nearest.find? inside).map (⟨·, unit⟩)

end Binary

/-- The same decimal without trailing zeros among its digits. -/
def Decimal.strip (d : Decimal) : Decimal :=
  go d.digits d.exponent d.digits
where
  /-- Each zero dropped makes the digits smaller, so as many rounds as the digits
      count suffice. -/
  go : Nat → Int → Nat → Decimal
    | n, e, 0 => ⟨n, e⟩
    | n, e, rounds + 1 =>
      if n ≠ 0 ∧ n % 10 = 0 then go (n / 10) (e + 1) rounds else ⟨n, e⟩

/-- The shortest decimal of a finite number other than zero, its sign left out. -/
def shortestDecimal (x : Float) : Decimal :=
  let b := Binary.ofBits x.toBits
  let k := b.magnitude
  let grids := (List.range 17).map (· + 1)
  ((grids.findSome? (b.onGrid? k)).getD ⟨b.significand, 0⟩).strip

/-! ## Texts -/

def digitChars (n : Nat) : List Char :=
  Nat.toDigits 10 n

/-- Positional notation with the point after `k` places; a whole number has no point. -/
def Decimal.positional (d : Decimal) : List Char :=
  let ds := digitChars d.digits
  let k := (ds.length : Int) + d.exponent
  if 0 ≤ d.exponent then
    ds ++ List.replicate d.exponent.toNat '0'
  else if 0 < k then
    ds.take k.toNat ++ ['.'] ++ ds.drop k.toNat
  else
    ['0', '.'] ++ List.replicate (-k).toNat '0' ++ ds

/-- Exponent notation with one digit before the point. -/
def Decimal.scientific (d : Decimal) : List Char :=
  let ds := digitChars d.digits
  let e := (ds.length : Int) + d.exponent - 1
  let sign := if e < 0 then ['-'] else ['+']
  let fraction := if ds.length ≤ 1 then [] else '.' :: ds.drop 1
  ds.take 1 ++ fraction ++ ['e'] ++ sign ++ digitChars e.natAbs

def signChars (x : Float) : List Char :=
  if maxSigned64 < x.toBits.toNat then ['-'] else []

/-- A number as the text of settings shows it: always positional. -/
def plainText (x : Float) : String :=
  if x.isNaN then "NaN"
  else
    let magnitude :=
      if x.isInf then ['i', 'n', 'f']
      else if x == 0 then ['0']
      else (shortestDecimal x).positional
    String.ofList (signChars x ++ magnitude)

end PeekLock
