import AffineSwarm.Binary64.Basic
import AffineSwarm.Decimal.Power
import AffineSwarm.Text.Ascii

/-!
# Reading decimals

The number written by a decimal: an optional sign, digits with an optional point among
or around them, and an optional exponent; or the words for infinity and NaN in any
case. The result is the nearest binary64 number, a tie going to the even one.
-/

namespace AffineSwarm.Decimal

open Ascii (isDigit digitsValue splitFraction)

/-- Split a sign off the front; the flag says whether it is a minus. -/
def splitSign : List Char → Bool × List Char
  | '-' :: rest => (true, rest)
  | '+' :: rest => (false, rest)
  | cs => (false, cs)

/-- The integer written by a sign and digits and nothing else. -/
def integer? (cs : List Char) : Option Int :=
  let (negative, digits) := splitSign cs
  if digits.isEmpty || !digits.all isDigit then none
  else if negative then some (-(digitsValue digits : Int)) else some (digitsValue digits)

/-- Whether an integer has 64 bits with its sign. -/
def isInt64 (n : Int) : Bool := Int64.minValue.toInt ≤ n && n ≤ Int64.maxValue.toInt

/-- Exponents beyond this size give infinity or zero. -/
def exponentLimit : Int := 400

/-- The number nearest to `digits * 10^exponent`, where `count` is the number of digits. -/
def nearest (negative : Bool) (digits count : Nat) (exponent : Int) : Binary64 :=
  if digits = 0 || count + exponent < -exponentLimit then .ofMagnitude negative 0
  else if exponentLimit < count + exponent then .infinity negative
  else if 0 ≤ exponent then .ofRatio negative (digits * tenPow exponent.toNat) 1
  else .ofRatio negative digits (tenPow (-exponent).toNat)

/-- The exponent at the end of a decimal; zero if there is none. -/
def exponent? : List Char → Option Int
  | [] => some 0
  | c :: rest => if c = 'e' || c = 'E' then integer? rest else none

/-- The number written by a decimal without its sign. -/
def magnitude? (negative : Bool) (cs : List Char) : Option Binary64 :=
  let whole := cs.takeWhile isDigit
  let rest := cs.dropWhile isDigit
  let (fraction, rest) := splitFraction rest
  let digits := whole ++ fraction
  if digits.isEmpty then none
  else
    (exponent? rest).map fun e =>
      let significant := digits.dropWhile (· == '0')
      nearest negative (digitsValue significant) significant.length (e - fraction.length)

/-- The words for numbers that have no digits. -/
def word? (negative : Bool) (cs : List Char) : Option Binary64 :=
  match String.ofList (cs.map Char.toLower) with
  | "inf" => some (.infinity negative)
  | "infinity" => some (.infinity negative)
  | "nan" => some .nan
  | _ => none

/-- The number written by a text. -/
def binary64? (cs : List Char) : Option Binary64 :=
  let (negative, rest) := splitSign cs
  (word? negative rest).or (magnitude? negative rest)

end AffineSwarm.Decimal
