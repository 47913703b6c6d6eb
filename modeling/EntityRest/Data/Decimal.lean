import EntityRest.Data.Double

/-!
Decimal text of doubles: the fewest digits that still read back as the same number.

The numbers that round to a double form an interval, closed when the significand is even. `shortest`
looks through the decimal grids from coarse to fine and takes the first grid on which one of the two
neighbours of the double lies in the interval; of two hits it takes the nearer one. `plain` and
`scientific` lay the digits out.
-/

namespace EntityRest

/-- The number `digits * 10 ^ exponent`. -/
structure Decimal where
  digits : Nat
  exponent : Int
deriving DecidableEq

namespace Decimal

/-- A positive number with its neighbourhood: all three stand over the same denominator. -/
structure Interval where
  low : Nat
  value : Nat
  high : Nat
  den : Nat
  closed : Bool

/-- The numbers that round to the absolute value of a double, in quarters of its last place. -/
def Interval.ofDouble (x : Double) : Interval :=
  let m := x.significand
  let below := if m = Double.hiddenBit && 2 * Double.hiddenBit ≤ x.pattern then 1 else 2
  let up := 1 <<< (x.exponent - 2).toNat
  { low := (4 * m - below) * up
    value := 4 * m * up
    high := (4 * m + 2) * up
    den := 1 <<< (2 - x.exponent).toNat
    closed := m % 2 == 0 }

def Interval.contains (i : Interval) (n : Nat) : Bool :=
  (i.low < n && n < i.high) || (i.closed && (n == i.low || n == i.high))

/-- Measures the interval in units of `10 ^ k`. -/
def Interval.scale (i : Interval) (k : Int) : Interval :=
  let up := Nat.pow 10 (-k).toNat
  { i with
    low := i.low * up
    value := i.value * up
    high := i.high * up
    den := i.den * Nat.pow 10 k.toNat }

/-- The grid point of `10 ^ k` that represents the number, if one of its two neighbours does. -/
def Interval.onGrid? (i : Interval) (k : Int) : Option Nat :=
  let s := i.scale k
  let c := s.value / s.den
  let toLower := s.value - c * s.den
  let toUpper := (c + 1) * s.den - s.value
  let lowerFirst := toLower < toUpper || (toLower == toUpper && c % 2 == 0)
  match s.contains (c * s.den), s.contains ((c + 1) * s.den) with
  | true, true => some (if lowerFirst then c else c + 1)
  | true, false => some c
  | false, true => some (c + 1)
  | false, false => none

/-- The first hit among the grids `10 ^ k`, `10 ^ (k - 1)`, … -/
def Interval.search (i : Interval) (k : Int) : Nat → Decimal
  | 0 => ⟨i.value / i.den, 0⟩
  | fuel + 1 =>
    match i.onGrid? k with
    | some c => ⟨c, k⟩
    | none => i.search (k - 1) fuel

def digitCount (n : Nat) : Nat := (Nat.toDigits 10 n).length

/-- A power of ten above the number. -/
def Interval.magnitude (i : Interval) : Int :=
  if i.den ≤ i.value then digitCount (i.value / i.den) else 1 - digitCount (i.den / i.value)

/-- The shortest decimal that reads back as the absolute value of a double. -/
def shortest (x : Double) : Decimal :=
  if x.pattern = 0 then ⟨0, 0⟩
  else
    let i := Interval.ofDouble x
    i.search i.magnitude 20

/-- The number of digits before the decimal point. -/
def point (d : Decimal) : Int := digitCount d.digits + d.exponent

def zeros (n : Nat) : List Char := List.replicate n '0'

/-- Positional notation, without a point for a whole number that shows no zeros after it. -/
def plain (d : Decimal) : String :=
  let s := Nat.toDigits 10 d.digits
  let p := d.point
  String.ofList <|
    if 0 ≤ d.exponent then s ++ zeros d.exponent.toNat
    else if 0 < p then s.take p.toNat ++ '.' :: s.drop p.toNat
    else '0' :: '.' :: (zeros (-p).toNat ++ s)

/-- One digit before the point, and an exponent with its sign. -/
def scientific (d : Decimal) : String :=
  let s := Nat.toDigits 10 d.digits
  let e := d.point - 1
  let fraction := if s.length ≤ 1 then [] else '.' :: s.drop 1
  let sign := if e < 0 then '-' else '+'
  String.ofList (s.take 1 ++ fraction ++ 'e' :: sign :: Nat.toDigits 10 e.natAbs)

end Decimal

namespace Double

def signed (x : Double) (text : String) : String := if x.negative then "-" ++ text else text

/--
The text of a number in a document: positional from `1e-5` up to but excluding `1e16`, always with a
fractional digit, and scientific outside that range.
-/
def text (x : Double) : String :=
  let d := Decimal.shortest x
  let e := d.point - 1
  x.signed <|
    if x.pattern = 0 || (-5 ≤ e && e ≤ 15) then
      if d.exponent < 0 then d.plain else d.plain ++ ".0"
    else d.scientific

end Double

/--
The text of a limit in a message: a whole limit as a 64-bit integer, any other in positional
notation with as many digits as it needs.
-/
def Bound.text : Bound → String
  | finite x => if x.isWhole then toString x.toInt64 else x.signed (Decimal.shortest x).plain
  | infinite negative => if negative then "-inf" else "inf"
  | incomparable => "NaN"

end EntityRest
