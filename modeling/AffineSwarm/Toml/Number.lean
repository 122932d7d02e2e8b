import AffineSwarm.Settings.Value
import AffineSwarm.Toml.Token

/-!
# TOML numbers

A number can take several tokens, because points and plus signs are tokens of their own.
Integers have 64 bits and floats are finite, unless they are spelled out as not being so.
-/

namespace AffineSwarm.Toml

/-- How the digits of a number may be written. -/
structure DigitRule where
  base : Nat
  signed : Bool
  leadingZeros : Bool

/-- The digits at the start of a text, and the text after them. A single underscore may
stand between two digits. `started` says whether there was a digit, `zero` whether the
first one was a zero that no other digit may follow, `gap` whether an underscore waits
for a digit. -/
def scanDigits (rule : DigitRule) (started zero gap : Bool) :
    List Char → Option (List Char × List Char)
  | [] => if !started || gap then none else some ([], [])
  | c :: rest =>
    if (Hex.valueIn? rule.base c).isSome then
      if started && zero then none
      else
        (scanDigits rule true (zero || (!started && c = '0' && !rule.leadingZeros)) false rest).map
          fun (digits, rest) => (c :: digits, rest)
    else if c = '_' && !started then none
    else if c = '_' && !gap then scanDigits rule true zero true rest
    else if !started || gap then none
    else some ([], c :: rest)

/-- The digits at the start of a text with their sign. -/
def scanInteger (rule : DigitRule) : List Char → Option (List Char × List Char)
  | c :: rest =>
    if rule.signed && (c = '+' || c = '-') then
      (scanDigits rule false false false rest).map fun (digits, rest) => (c :: digits, rest)
    else scanDigits rule false false false (c :: rest)
  | [] => none

/-- The number that digits with a sign spell in a base. -/
def numberOf (base : Nat) (cs : List Char) : Int :=
  let (negative, digits) := Decimal.splitSign cs
  let n := digits.foldl (fun n c => n * base + (Hex.valueIn? base c).getD 0) 0
  if negative then -(n : Int) else n

/-- An integer of 64 bits that takes up a whole text. -/
def integer? (base : Nat) (cs : List Char) : Option Setting :=
  match scanInteger ⟨base, base = 10, base != 10⟩ cs with
  | some (digits, []) =>
    let n := numberOf base digits
    if Decimal.isInt64 n then some (.integer n) else none
  | _ => none

/-- The exponent of a float: the rest of its word, or else the next word, possibly after
a plus sign. -/
def exponent? (suffix : List Char) (tokens : List Token) :
    Option (List Char × List Token) :=
  match suffix with
  | [] => some ([], tokens)
  | c :: rest =>
    if c = 'e' || c = 'E' then
      if rest.isEmpty then
        let tokens := match tokens with
          | .plus :: tokens => tokens
          | tokens => tokens
        match tokens with
        | .word text :: tokens =>
          match scanInteger ⟨10, false, true⟩ text with
          | some (digits, []) => some ('e' :: digits, tokens)
          | _ => none
        | _ => none
      else
        match scanInteger ⟨10, true, true⟩ rest with
        | some (digits, []) => some ('e' :: digits, tokens)
        | _ => none
    else none

/-- A float: a word, and the word after the point if there is one. The result must be
finite. -/
def float? (word : List Char) (afterPoint : Option (List Char)) (tokens : List Token) :
    Option (Setting × List Token) := do
  let (whole, suffix) ← scanInteger ⟨10, true, false⟩ word
  let (fraction, suffix) ← match afterPoint with
    | none => some ([], suffix)
    | some word =>
      if suffix.isEmpty then
        (scanInteger ⟨10, false, true⟩ word).map fun (digits, rest) => ('.' :: digits, rest)
      else none
  let (exponent, tokens) ← exponent? suffix tokens
  let x ← Decimal.binary64? (whole ++ fraction ++ exponent)
  if x.isFinite then return (.float x, tokens) else none

/-- A number that starts with a word. -/
def number? (word : List Char) (tokens : List Token) : Option (Setting × List Token) :=
  match word, tokens with
  | '0' :: 'x' :: digits, _ => (integer? 16 digits).map (·, tokens)
  | '0' :: 'o' :: digits, _ => (integer? 8 digits).map (·, tokens)
  | '0' :: 'b' :: digits, _ => (integer? 2 digits).map (·, tokens)
  | _, _ =>
    if word.contains 'e' || word.contains 'E' then float? word none tokens
    else
      match tokens with
      | .period :: .word after :: rest => float? word (some after) rest
      | .period :: _ => none
      | _ =>
        match String.ofList word with
        | "inf" => some (.float (.infinity false), tokens)
        | "-inf" => some (.float (.infinity true), tokens)
        | "nan" => some (.float .nan, tokens)
        | "-nan" => some (.float .nan, tokens)
        | _ => (integer? 10 word).map (·, tokens)

end AffineSwarm.Toml
