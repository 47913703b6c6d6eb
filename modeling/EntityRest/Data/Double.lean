/-!
Finite binary64 numbers, kept as sign and bit pattern and computed with in exact integer arithmetic.

For numbers of one sign the order of the patterns is the order of the numbers, so `key` turns
comparison into comparison of integers; the two zeros share a key. `ofRatio?` rounds a quotient of
natural numbers to the nearest double, a tie to the even pattern.
-/

namespace EntityRest

/-- A finite binary64 number: its sign, and its exponent and fraction fields read as one number. -/
structure Double where
  negative : Bool
  pattern : Nat
  pattern_lt : pattern < 0x7FF0000000000000
deriving DecidableEq

namespace Double

def zero : Double := ⟨false, 0, by decide⟩

instance : Inhabited Double := ⟨zero⟩

/-- The integer whose order is that of the numbers; both zeros have the key 0. -/
def key (x : Double) : Int := if x.negative then -x.pattern else x.pattern

instance : LE Double := ⟨fun x y => x.key ≤ y.key⟩

instance : LT Double := ⟨fun x y => x.key < y.key⟩

instance (x y : Double) : Decidable (x ≤ y) := inferInstanceAs (Decidable (x.key ≤ y.key))

instance (x y : Double) : Decidable (x < y) := inferInstanceAs (Decidable (x.key < y.key))

/-- Equality as numbers: the two zeros are equal. -/
def same (x y : Double) : Bool := x.key == y.key

def order (x y : Double) : Ordering := compare x.key y.key

def neg (x : Double) : Double := ⟨!x.negative, x.pattern, x.pattern_lt⟩

/-- The bit that a significand has above its fraction, and the weight of the exponent in a pattern. -/
def hiddenBit : Nat := 0x10000000000000

/-- The integer `m` of the representation `m * 2 ^ q` of the absolute value. -/
def significand (x : Double) : Nat :=
  if x.pattern / hiddenBit = 0 then x.pattern else hiddenBit + x.pattern % hiddenBit

/-- The exponent `q` of the representation `m * 2 ^ q` of the absolute value. -/
def exponent (x : Double) : Int :=
  if x.pattern / hiddenBit = 0 then -1074 else (x.pattern / hiddenBit : Nat) - 1075

/-- The absolute value as a quotient of natural numbers. -/
def ratio (x : Double) : Nat × Nat :=
  (x.significand <<< x.exponent.toNat, 1 <<< (-x.exponent).toNat)

/-- The quotient rounded to the nearest natural number, a tie to the even one. -/
def roundDiv (num den : Nat) : Nat :=
  let q := num / den
  let r := num % den
  if den < 2 * r || (2 * r == den && q % 2 == 1) then q + 1 else q

/-- The exponent at which a positive quotient has a significand of 53 bits, but -1074 at least. -/
def scaleOf (num den : Nat) : Int :=
  let q : Int := num.log2 - den.log2 - 52
  let small := num <<< (-q).toNat < (den <<< q.toNat) * hiddenBit
  max (if small then q - 1 else q) (-1074)

/-- The pattern nearest to a quotient of natural numbers. -/
def roundPattern (num den : Nat) : Nat :=
  if num = 0 then 0
  else
    let q := scaleOf num den
    roundDiv (num <<< (-q).toNat) (den <<< q.toNat) + (q + 1074).toNat * hiddenBit

/-- The double nearest to a quotient, unless that is beyond the largest one. -/
def ofRatio? (negative : Bool) (num den : Nat) : Option Double :=
  if h : roundPattern num den < 0x7FF0000000000000 then some ⟨negative, roundPattern num den, h⟩
  else none

/-- The largest double of a sign. -/
def largest (negative : Bool) : Double := ⟨negative, 0x7FEFFFFFFFFFFFFF, by decide⟩

/-- The double nearest to an integer. -/
def ofInt (n : Int) : Double :=
  let negative := decide (n < 0)
  (ofRatio? negative n.natAbs 1).getD (largest negative)

def isWhole (x : Double) : Bool := x.ratio.1 % x.ratio.2 == 0

/-- The integer part, cut to the range of 64-bit signed integers. -/
def toInt64 (x : Double) : Int :=
  let n : Int := x.ratio.1 / x.ratio.2
  if x.negative then max (-n) (-0x8000000000000000) else min n 0x7FFFFFFFFFFFFFFF

/-- The product of two doubles, rounded, unless that is beyond the largest double. -/
def mul? (x y : Double) : Option Double :=
  ofRatio? (x.negative != y.negative) (x.ratio.1 * y.ratio.1) (x.ratio.2 * y.ratio.2)

/-- The quotient of two doubles, rounded; nothing if it overflows or the divisor is zero. -/
def div? (x y : Double) : Option Double :=
  if y.ratio.1 = 0 then none
  else ofRatio? (x.negative != y.negative) (x.ratio.1 * y.ratio.2) (x.ratio.2 * y.ratio.1)

/--
The double nearest to `digits * 10 ^ exp10`, unless that is beyond the largest double. Exponents far
outside the range of doubles are settled by the number of digits alone.
-/
def ofDecimal? (negative : Bool) (digits : Nat) (exp10 : Int) : Option Double :=
  let places : Int := (Nat.toDigits 10 digits).length
  if digits = 0 || exp10 + places < -400 then some ⟨negative, 0, by decide⟩
  else if 400 < exp10 + places then none
  else ofRatio? negative (digits * Nat.pow 10 exp10.toNat) (Nat.pow 10 (-exp10).toNat)

end Double

/-- A limit on numbers or lengths: finite, infinite, or one that compares with nothing. -/
inductive Bound where
  | finite (x : Double)
  | infinite (negative : Bool)
  | incomparable
deriving DecidableEq

namespace Bound

/-- Whether a number lies below the limit. -/
def isAbove (b : Bound) (x : Double) : Bool :=
  match b with
  | finite y => decide (x < y)
  | infinite negative => !negative
  | incomparable => false

/-- Whether a number lies above the limit. -/
def isBelow (b : Bound) (x : Double) : Bool :=
  match b with
  | finite y => decide (y < x)
  | infinite negative => negative
  | incomparable => false

/-- Equality as numbers; a limit that compares with nothing differs from itself. -/
def same : Bound → Bound → Bool
  | finite x, finite y => x.same y
  | infinite s, infinite t => s == t
  | _, _ => false

end Bound

end EntityRest
