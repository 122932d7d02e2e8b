import AffineSwarm.Decimal.Reading
import AffineSwarm.Decimal.Text

/-!
# TOML dates

A date, a time of day, or both with an optional offset. A date has no other use in
settings than to be written again, in its standard form.
-/

namespace AffineSwarm.Toml

/-- The number of exactly so many digits, and the text after them. -/
def fixedDigits (count : Nat) (cs : List Char) : Option (Nat × List Char) :=
  let digits := cs.take count
  if digits.length = count ∧ digits.all Ascii.isDigit then
    some (Ascii.digitsValue digits, cs.drop count)
  else none

def expectChar (c : Char) : List Char → Option (List Char)
  | d :: rest => if d = c then some rest else none
  | [] => none

/-- A number with leading zeros. -/
def paddedText (width n : Nat) : String :=
  let digits := Decimal.digitText n
  Decimal.zeros (width - digits.length) ++ digits

def dateText? (cs : List Char) : Option (String × List Char) := do
  let (year, cs) ← fixedDigits 4 cs
  let cs ← expectChar '-' cs
  let (month, cs) ← fixedDigits 2 cs
  let cs ← expectChar '-' cs
  let (day, cs) ← fixedDigits 2 cs
  if month < 1 ∨ 12 < month ∨ day < 1 ∨ 31 < day then none
  else return (paddedText 4 year ++ "-" ++ paddedText 2 month ++ "-" ++ paddedText 2 day, cs)

/-- Read the digits after the seconds, of which nine count; returns their text without
trailing zeros. -/
def secondsFraction? (cs : List Char) : Option (String × List Char) :=
  match cs with
  | '.' :: rest =>
    match rest.takeWhile Ascii.isDigit with
    | [] => none
    | digits =>
      let kept := ((digits.take 9).reverse.dropWhile (· == '0')).reverse
      some (if kept.isEmpty then "" else "." ++ String.ofList kept,
        rest.dropWhile Ascii.isDigit)
  | cs => some ("", cs)

/-- Read a time of day; returns its text. -/
def timeText? (cs : List Char) : Option (String × List Char) := do
  let (hour, cs) ← fixedDigits 2 cs
  let cs ← expectChar ':' cs
  let (minute, cs) ← fixedDigits 2 cs
  let cs ← expectChar ':' cs
  let (second, cs) ← fixedDigits 2 cs
  let (fraction, cs) ← secondsFraction? cs
  if 24 < hour ∨ 59 < minute ∨ 59 < second then none
  else
    return (paddedText 2 hour ++ ":" ++ paddedText 2 minute ++ ":" ++ paddedText 2 second ++
      fraction, cs)

/-- Read an offset at the end of a text; returns its text. -/
def offsetText? (cs : List Char) : Option String :=
  match cs with
  | [] => some ""
  | 'Z' :: [] => some "Z"
  | 'z' :: [] => some "Z"
  | sign :: rest =>
    if sign = '+' || sign = '-' then do
      let (hours, rest) ← fixedDigits 2 rest
      let rest ← expectChar ':' rest
      let (minutes, rest) ← fixedDigits 2 rest
      -- A negative zero of hours is written with a plus sign.
      let sign := if hours = 0 then '+' else sign
      if rest.isEmpty then
        return sign.toString ++ paddedText 2 hours ++ ":" ++ paddedText 2 minutes
      else none
    else none

/-- The standard form of a date, a time of day, or both. -/
def dateTimeText? (cs : List Char) : Option String :=
  if (cs.drop 2).head? = some ':' then do
    let (time, rest) ← timeText? cs
    if rest.isEmpty then return time else none
  else do
    let (date, rest) ← dateText? cs
    match rest with
    | [] => return date
    | c :: rest =>
      if c = 'T' || c = 't' || c = ' ' then
        let (time, rest) ← timeText? rest
        let offset ← offsetText? rest
        return date ++ "T" ++ time ++ offset
      else none

end AffineSwarm.Toml
