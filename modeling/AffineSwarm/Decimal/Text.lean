import AffineSwarm.Decimal.Shortest

/-!
# Written numbers

A `Layout` says how the digits of a number are set out: where positional notation
ends, whether a whole number keeps a fractional digit, and what stands for values
that are no numbers. `Layout.plain` is the layout of messages, `Layout.json` that
of JSON texts; `fixed` writes a given number of decimal places.
-/

namespace AffineSwarm.Decimal

structure Layout where
  /-- Which of two equally near shortest decimals is taken. -/
  tie : Tie
  /-- The exponents of the leading digit that are written positionally; `none` if all are. -/
  positional : Option (Int × Int)
  /-- A whole number in positional notation ends in `.0`. -/
  keepsPoint : Bool
  notANumber : String
  infinite : String
  minusInfinite : String

/-- Numbers in messages: never an exponent, and whole numbers without a point. -/
def Layout.plain : Layout := ⟨.up, none, false, "NaN", "inf", "-inf"⟩

/-- Numbers in JSON: positional from `10^-5` to below `10^16` and with a fractional
digit, otherwise with a signed exponent; what JSON cannot write is `null`. -/
def Layout.json : Layout := ⟨.even, some (-5, 15), true, "null", "null", "null"⟩

def digitText (n : Nat) : String := Nat.repr n

def intText (n : Int) : String :=
  if n < 0 then "-" ++ digitText n.natAbs else digitText n.natAbs

def zeros (n : Nat) : String := String.ofList (List.replicate n '0')

/-- A positive decimal without an exponent. -/
def positionalText (keepsPoint : Bool) (d : Decimal) : String :=
  let text := digitText d.digits
  if 0 ≤ d.exponent then
    text ++ zeros d.exponent.toNat ++ if keepsPoint then ".0" else ""
  else
    let places := (-d.exponent).toNat
    let count := text.length
    if places < count then
      (text.take (count - places)).toString ++ "." ++ (text.drop (count - places)).toString
    else "0." ++ zeros (places - count) ++ text

/-- A positive decimal as `d.ddde+N`. -/
def exponentText (d : Decimal) (lead : Int) : String :=
  let text := digitText d.digits
  let head := (text.take 1).toString
  let tail := (text.drop 1).toString
  head ++ (if tail.isEmpty then "" else "." ++ tail) ++ "e" ++
    (if lead < 0 then "-" else "+") ++ digitText lead.natAbs

def lead (d : Decimal) : Int := d.exponent + (digitText d.digits).length - 1

def Layout.magnitudeText (layout : Layout) (m : Nat) : String :=
  if m = 0 then if layout.keepsPoint then "0.0" else "0"
  else
    let d := shortest layout.tie m
    match layout.positional with
    | none => positionalText layout.keepsPoint d
    | some (low, high) =>
      if low ≤ d.lead ∧ d.lead ≤ high then positionalText layout.keepsPoint d
      else exponentText d d.lead

/-- The text of a number. The sign of zero is written. -/
def Layout.text (layout : Layout) (x : Binary64) : String :=
  if x.isNaN then layout.notANumber
  else if !x.isFinite then if x.negative then layout.minusInfinite else layout.infinite
  else (if x.negative then "-" else "") ++ layout.magnitudeText x.magnitude

/-- The text of a number with exactly `places` decimal places. The exact value is
rounded, a tie going to the even last digit; the sign of zero is kept. -/
def fixed (places : Nat) (x : Binary64) : String :=
  if !x.isFinite then Layout.plain.text x
  else
    let n := Binary64.roundHalfEven (x.units * tenPow places) Binary64.unitsPerOne
    let whole := digitText (n / tenPow places)
    let rest := digitText (n % tenPow places)
    (if x.negative then "-" else "") ++ whole ++
      if places = 0 then "" else "." ++ zeros (places - rest.length) ++ rest

end AffineSwarm.Decimal
