import AffineSwarm.Binary64.Basic
import AffineSwarm.Decimal.Power

/-!
# The shortest decimal of a binary64 number

Writing a number and reading it back must give the same bits. Of all decimals
that read back as the number, the one with the fewest digits is written, and of
those the nearest. The search tries one digit, two digits, and so on: on the grid
of decimals with that many digits only the two neighbours of the number need a
look, because a grid point inside the rounding interval implies that one of the
neighbours is inside it.

All comparisons are made in exact arithmetic on quarters of a unit, in which the
ends of the rounding interval are whole numbers.
-/

namespace AffineSwarm

/-- A positive decimal `digits × 10^exponent`. -/
structure Decimal where
  digits : Nat
  exponent : Int
  deriving DecidableEq, Repr

namespace Decimal

/-- Which of two equally near decimals is written. -/
inductive Tie where
  | up
  | even
  deriving DecidableEq, Repr

/-- The decimals that read back as the number with the given magnitude bits: all
values between the two ends, counted in quarters of a unit. A tie reads back as
the number with even bits, so the ends belong to the interval exactly if the
number's bits are even. -/
structure RoundingInterval where
  low : Nat
  value : Nat
  high : Nat
  closed : Bool

def RoundingInterval.ofMagnitude (m : Nat) : RoundingInterval :=
  let here := Binary64.unitsOfMagnitude m
  let below := Binary64.unitsOfMagnitude (m - 1)
  let above := Binary64.unitsOfMagnitude (m + 1)
  ⟨2 * (below + here), 4 * here, 2 * (here + above), m % 2 = 0⟩

/-- How many quarters of a unit make one. -/
def quartersPerOne : Nat := 4 * Binary64.unitsPerOne

/-- Whether `n / scale` quarters lie in the interval. -/
def RoundingInterval.contains (i : RoundingInterval) (n scale : Nat) : Bool :=
  if i.closed then i.low * scale ≤ n && n ≤ i.high * scale
  else i.low * scale < n && n < i.high * scale

/-- `10^e` as a ratio of natural numbers. -/
def tenPower (e : Int) : Nat × Nat :=
  if 0 ≤ e then (tenPow e.toNat, 1) else (1, tenPow (-e).toNat)

/-- The multiple of `10^exponent` to write for the interval's value, if one of the
two neighbouring multiples lies in the interval. -/
def onGrid? (tie : Tie) (i : RoundingInterval) (exponent : Int) : Option Nat :=
  let (num, den) := tenPower exponent
  let step := num * quartersPerOne
  let lower := i.value * den / step
  let upper := lower + 1
  let lowerIn := lower != 0 && i.contains (lower * step) den
  let upperIn := i.contains (upper * step) den
  if lowerIn && upperIn then
    let down := i.value * den - lower * step
    let up := upper * step - i.value * den
    if down < up then some lower
    else if up < down then some upper
    else match tie with
      | .up => some upper
      | .even => some (if lower % 2 = 0 then lower else upper)
  else if lowerIn then some lower
  else if upperIn then some upper
  else none

/-- The largest `e`, from `start` downwards, with `10^e` not above the value. -/
def leadingExponent (value : Nat) : Nat → Int → Int
  | 0, e => e
  | fuel + 1, e =>
    let (num, den) := tenPower e
    if num * quartersPerOne ≤ value * den then e else leadingExponent value fuel (e - 1)

/-- The first grid with a hit, from `10^exponent` on to finer grids. Seventeen
digits always suffice, so the fallback of the last grid is not reached. -/
def search (hit? : Int → Option Nat) : Nat → Int → Decimal
  | 0, e => ⟨0, e⟩
  | fuel + 1, e =>
    match hit? e with
    | some n => ⟨n, e⟩
    | none => search hit? fuel (e - 1)

def dropZeros : Nat → Nat → Int → Decimal
  | 0, n, e => ⟨n, e⟩
  | fuel + 1, n, e => if n % 10 = 0 then dropZeros fuel (n / 10) (e + 1) else ⟨n, e⟩

/-- The shortest decimal of the positive finite number with magnitude bits `m`. -/
def shortest (tie : Tie) (m : Nat) : Decimal :=
  let i := RoundingInterval.ofMagnitude m
  -- The value has `log2` binary places above one quarter unit; a decimal place is
  -- more than three binary ones, so the estimate is never too low.
  let estimate : Int := ((i.value.log2 : Int) - 1076) * 30103 / 100000 + 1
  let lead := leadingExponent i.value 4 estimate
  let found := search (onGrid? tie i) 18 lead
  dropZeros 18 found.digits found.exponent

end Decimal

end AffineSwarm
