import AffineSwarm.Decimal.Text

/-!
# The text of a duration

Durations are natural numbers of nanoseconds. They are shown in the largest unit of
which there is at least one, with the exact fraction and no trailing zeros.
-/

namespace AffineSwarm.Duration

def ofMillis (n : Nat) : Nat := n * 1000000
def ofSeconds (n : Nat) : Nat := n * 1000000000

/-- A fraction `n / 10^places` after the point, without trailing zeros. -/
def fractionText (places n : Nat) : String :=
  let digits := Decimal.digitText n
  let padded := List.replicate (places - digits.length) '0' ++ digits.toList
  String.ofList (padded.reverse.dropWhile (· == '0')).reverse

/-- `n` nanoseconds in units of `10^places`. -/
def inUnit (places : Nat) (unit : String) (n : Nat) : String :=
  let rest := n % Decimal.tenPow places
  Decimal.digitText (n / Decimal.tenPow places) ++
    (if rest = 0 then "" else "." ++ fractionText places rest) ++ unit

def text (n : Nat) : String :=
  if 1000000000 ≤ n then inUnit 9 "s" n
  else if 1000000 ≤ n then inUnit 6 "ms" n
  else if 1000 ≤ n then inUnit 3 "µs" n
  else inUnit 0 "ns" n

end AffineSwarm.Duration
