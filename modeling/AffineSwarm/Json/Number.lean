import AffineSwarm.Json.Parser

/-!
# The value of a JSON number

An integer is a number written without point and exponent; minus zero is none. As a
binary64 number, a number is read in the way fast readers do it: as many digits as fit
into 64 bits make a significand, the digits after them only move the decimal point,
and the significand is scaled by one power of ten. The result can differ from the
nearest number in its last bits, and two programs agree on it only if they compute it
in the same way.
-/

namespace AffineSwarm.Json

open Ascii (isDigit digitValue digitsValue splitFraction)

/-- The integer that a number is, if it is written as one. -/
def integer? : List Char → Option Int
  | '-' :: digits =>
    if digits.all isDigit && digits != ['0'] then some (-(digitsValue digits : Int)) else none
  | digits => if digits.all isDigit then some (digitsValue digits) else none

/-- The parts of a number: sign, digits before and after the point, and the exponent. -/
structure Numeral where
  negative : Bool
  whole : List Char
  fraction : List Char
  exponentNegative : Bool
  exponent : List Char

/-- Split off the sign of an exponent. -/
def Numeral.exponentParts : List Char → Bool × List Char
  | '-' :: digits => (true, digits)
  | '+' :: digits => (false, digits)
  | digits => (false, digits)

def Numeral.ofMagnitude (negative : Bool) (cs : List Char) : Numeral :=
  let whole := cs.takeWhile isDigit
  let rest := cs.dropWhile isDigit
  let (fraction, rest) := splitFraction rest
  let (exponentNegative, exponent) := exponentParts (rest.drop 1)
  ⟨negative, whole, fraction, exponentNegative, exponent⟩

/-- The parts of a number as written. -/
def Numeral.ofChars : List Char → Numeral
  | '-' :: cs => .ofMagnitude true cs
  | cs => .ofMagnitude false cs

/-- A significand of at most 64 bits and a power of ten. -/
structure Scaled where
  significand : Nat
  exponent : Int

/-- Take digits into a significand while it fits into 64 bits. Returns the digits that
did not fit. -/
def takeDigits : Nat → List Char → Nat × List Char
  | n, [] => (n, [])
  | n, c :: rest =>
    if n * 10 + digitValue c < UInt64.size then takeDigits (n * 10 + digitValue c) rest
    else (n, c :: rest)

/-- The significand and the power of ten of the digits of a number. -/
def Numeral.scaled (n : Numeral) : Scaled :=
  let (significand, skipped) := takeDigits 0 n.whole
  let (significand, unread) := takeDigits significand n.fraction
  ⟨significand, (skipped.length : Int) - (n.fraction.length - unread.length : Nat)⟩

/-- A power of ten as a binary64 number. -/
def tenTo (n : Nat) : Binary64 := .ofNat (Decimal.tenPow n)

/-- The largest power of ten that is a binary64 number. -/
def largestTenPower : Nat := 308

/-- Scale a number by a power of ten. A power that is too small is taken in steps, the
first argument bounding their number; the result is then soon zero. -/
def scaleBy : Nat → Binary64 → Int → Option Binary64
  | 0, x, _ => some x
  | steps + 1, x, e =>
    if e.natAbs ≤ largestTenPower then
      if 0 ≤ e then
        let y := x.mul (tenTo e.natAbs)
        if y.isFinite then some y else none
      else some (x.div (tenTo e.natAbs))
    else if x.magnitude = 0 then some x
    else if 0 ≤ e then none
    else scaleBy steps (x.div (tenTo largestTenPower)) (e + largestTenPower)

def largestExponent : Int := 2147483647

/-- The absolute value of a number; none if it is too large. -/
def Numeral.magnitude? (n : Numeral) : Option Binary64 :=
  let scaled := n.scaled
  let exponent : Int := digitsValue n.exponent
  if largestExponent < exponent then
    if scaled.significand != 0 && !n.exponentNegative then none else some .zero
  else
    scaleBy 4 (.ofNat scaled.significand)
      (scaled.exponent + if n.exponentNegative then -exponent else exponent)

/-- A JSON number as a binary64 number; none if it is too large. -/
def binary64? (text : List Char) : Option Binary64 :=
  let n := Numeral.ofChars text
  n.magnitude?.map fun x => if n.negative then x.neg else x

end AffineSwarm.Json
