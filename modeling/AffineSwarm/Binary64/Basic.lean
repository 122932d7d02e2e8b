/-!
# Binary64 numbers

Fitness, feedback and error sums are IEEE 754 binary64 numbers, and every bit of
them is visible on the wire. A number is kept as its 64 bits, and arithmetic on
it is exact integer arithmetic followed by one rounding:

* every finite number is a whole number of *units* of `2^-1074`, the smallest
  positive number (`units`);
* sums, products, quotients and decimals are first written as an exact ratio of
  natural numbers, counted in units, and `ofUnits` rounds that ratio to the
  nearest number, ties to the even one.

Comparison reads the bits directly: apart from the sign, the order of the bits
is the order of the numbers (`order`).
-/

namespace AffineSwarm

/-- A binary64 number, given by its bits: sign, 11 exponent bits, 52 fraction bits. -/
structure Binary64 where
  bits : UInt64
  deriving DecidableEq, Repr, Inhabited

namespace Binary64

-- ---------------------------------------------------------------------------
-- Fields
-- ---------------------------------------------------------------------------

/-- The weight of the lowest exponent bit. -/
def fractionSize : Nat := 0x10000000000000

def signSize : Nat := 0x8000000000000000

/-- The bits of positive infinity; a larger magnitude is a NaN. -/
def infinityBits : Nat := 0x7ff0000000000000

def magnitude (x : Binary64) : Nat := x.bits.toNat % signSize

/-- Whether the sign bit is set. It is meaningful for zeros too. -/
def negative (x : Binary64) : Bool := decide (signSize ≤ x.bits.toNat)

def isNaN (x : Binary64) : Bool := decide (infinityBits < x.magnitude)

def isFinite (x : Binary64) : Bool := decide (x.magnitude < infinityBits)

/-- The number with the given sign and magnitude bits. -/
def ofMagnitude (negative : Bool) (magnitude : Nat) : Binary64 :=
  ⟨UInt64.ofNat (magnitude % signSize + if negative then signSize else 0)⟩

def zero : Binary64 := ⟨0⟩
def one : Binary64 := ⟨0x3ff0000000000000⟩
def minusOne : Binary64 := ⟨0xbff0000000000000⟩
def half : Binary64 := ⟨0x3fe0000000000000⟩
def nan : Binary64 := ⟨0x7ff8000000000000⟩

def infinity (negative : Bool) : Binary64 := ofMagnitude negative infinityBits

-- ---------------------------------------------------------------------------
-- Units and rounding
-- ---------------------------------------------------------------------------

/-- The number of units of `2^-1074` that the magnitude bits of a finite number
stand for: subnormals are counted by their fraction alone. -/
def unitsOfMagnitude (m : Nat) : Nat :=
  if m < fractionSize then m
  else (fractionSize + m % fractionSize) <<< (m / fractionSize - 1)

/-- The absolute value of a finite number, in units of `2^-1074`. -/
def units (x : Binary64) : Nat := unitsOfMagnitude x.magnitude

/-- The value of a finite number, in units of `2^-1074`. Both zeros give 0. -/
def signedUnits (x : Binary64) : Int :=
  if x.negative then -(x.units : Int) else x.units

def unitsPerOne : Nat := 1 <<< 1074

/-- `num / den` rounded to the nearest whole number, ties to the even one. -/
def roundHalfEven (num den : Nat) : Nat :=
  let quotient := num / den
  let rest := num % den
  if den < 2 * rest ∨ (den = 2 * rest ∧ quotient % 2 = 1) then quotient + 1 else quotient

/-- The magnitude bits nearest to `num / den` units. A significand has at most 53
bits, so of a longer number the lowest bits are rounded away; what carries out of
the significand carries into the exponent, and beyond the largest number lies
infinity. -/
def magnitudeOfUnits (num den : Nat) : Nat :=
  let dropped := (num / den).log2 - 52
  min (dropped * fractionSize + roundHalfEven num (den <<< dropped)) infinityBits

/-- The number nearest to `num / den` units, with the given sign. -/
def ofUnits (negative : Bool) (num den : Nat) : Binary64 :=
  ofMagnitude negative (magnitudeOfUnits num den)

/-- The number nearest to `num / den`, with the given sign. -/
def ofRatio (negative : Bool) (num den : Nat) : Binary64 :=
  ofUnits negative (num * unitsPerOne) den

/-- The number nearest to a natural number. -/
def ofNat (n : Nat) : Binary64 := ofRatio false n 1

/-- The number nearest to an integer. -/
def ofInt (n : Int) : Binary64 := ofRatio (decide (n < 0)) n.natAbs 1

-- ---------------------------------------------------------------------------
-- Order
-- ---------------------------------------------------------------------------

/-- The place of a number that is not a NaN in the order of all numbers. Both
zeros share one place. -/
def order (x : Binary64) : Int :=
  if x.negative then -(x.magnitude : Int) else x.magnitude

/-- Strictly below; false as soon as a NaN takes part. -/
def lt (x y : Binary64) : Bool :=
  !x.isNaN && !y.isNaN && decide (x.order < y.order)

/-- Below or equal; false as soon as a NaN takes part. -/
def le (x y : Binary64) : Bool :=
  !x.isNaN && !y.isNaN && decide (x.order ≤ y.order)

/-- Keep `x` within `[low, high]`. A NaN is kept. -/
def clamp (x low high : Binary64) : Binary64 :=
  if x.lt low then low else if high.lt x then high else x

/-- Keep `x` within `[0, 1]`; a NaN becomes 0. -/
def clampUnit (x : Binary64) : Binary64 :=
  if x.isNaN then zero else x.clamp zero one

-- ---------------------------------------------------------------------------
-- Arithmetic
-- ---------------------------------------------------------------------------

def neg (x : Binary64) : Binary64 := ofMagnitude (!x.negative) x.magnitude

/-- The sum of two finite numbers: exact, then rounded. An exact zero is `-0` only
if both numbers have the negative sign. -/
def addFinite (x y : Binary64) : Binary64 :=
  let sum := x.signedUnits + y.signedUnits
  if sum = 0 then ofMagnitude (x.negative && y.negative) 0
  else ofUnits (decide (sum < 0)) sum.natAbs 1

def add (x y : Binary64) : Binary64 :=
  if x.isNaN || y.isNaN then nan
  else if x.isFinite then
    if y.isFinite then x.addFinite y else y
  else if y.isFinite || x.negative == y.negative then x
  else nan

def mul (x y : Binary64) : Binary64 :=
  let sign := x.negative != y.negative
  if x.isNaN || y.isNaN then nan
  else if x.isFinite && y.isFinite then ofUnits sign (x.units * y.units) unitsPerOne
  else if x.magnitude = 0 || y.magnitude = 0 then nan
  else infinity sign

def div (x y : Binary64) : Binary64 :=
  let sign := x.negative != y.negative
  if x.isNaN || y.isNaN then nan
  else if x.isFinite then
    if !y.isFinite then ofMagnitude sign 0
    else if y.magnitude = 0 then if x.magnitude = 0 then nan else infinity sign
    else ofUnits sign (x.units * unitsPerOne) y.units
  else if y.isFinite then infinity sign
  else nan

-- ---------------------------------------------------------------------------
-- Whole numbers
-- ---------------------------------------------------------------------------

/-- The nearest integer, a half going away from zero. -/
def roundToInt (x : Binary64) : Int :=
  let rounded : Int := ((2 * x.units + unitsPerOne) / (2 * unitsPerOne) : Nat)
  if x.negative then -rounded else rounded

/-- The nearest integer, a half going away from zero, kept within `[low, high]`.
A NaN becomes 0. -/
def roundWithin (low high : Int) (x : Binary64) : Int :=
  if x.isNaN then 0
  else if x.isFinite then max low (min high x.roundToInt)
  else if x.negative then low else high

end Binary64

end AffineSwarm
