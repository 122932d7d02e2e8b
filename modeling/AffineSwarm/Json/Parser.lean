import AffineSwarm.Json.Basic
import AffineSwarm.Text.Ascii

/-!
# Reading JSON

A strict reader: one value, with blanks around it and between its parts, and nothing
else. Every reader returns what it read and the text after it.
-/

namespace AffineSwarm.Json

open Ascii (isDigit)

def isBlank (c : Char) : Bool := c = ' ' || c = '\n' || c = '\t' || c = '\r'

def skipBlanks (cs : List Char) : List Char := cs.dropWhile isBlank

def scanDigits (cs : List Char) : Option (List Char × List Char) :=
  match cs.takeWhile isDigit with
  | [] => none
  | digits => some (digits, cs.dropWhile isDigit)

/-- The whole part of a number: a zero, or digits that do not start with one. -/
def scanWhole : List Char → Option (List Char × List Char)
  | '0' :: rest => some (['0'], rest)
  | cs => scanDigits cs

/-- A point with digits after it, if there is a point. -/
def scanFraction : List Char → Option (List Char × List Char)
  | '.' :: rest => (scanDigits rest).map fun (digits, rest) => ('.' :: digits, rest)
  | cs => some ([], cs)

/-- The sign of an exponent, if there is one. -/
def scanSign : List Char → List Char × List Char
  | '+' :: rest => (['+'], rest)
  | '-' :: rest => (['-'], rest)
  | cs => ([], cs)

/-- An exponent, if there is an exponent letter. -/
def scanExponent (cs : List Char) : Option (List Char × List Char) :=
  match cs with
  | c :: rest =>
    if c = 'e' || c = 'E' then
      let (sign, rest) := scanSign rest
      (scanDigits rest).map fun (digits, rest) => (c :: sign ++ digits, rest)
    else some ([], cs)
  | [] => some ([], [])

/-- A number without its minus sign. -/
def scanMagnitude (cs : List Char) : Option (List Char × List Char) := do
  let (whole, rest) ← scanWhole cs
  let (fraction, rest) ← scanFraction rest
  let (exponent, rest) ← scanExponent rest
  return (whole ++ fraction ++ exponent, rest)

/-- A number as written. -/
def scanNumber : List Char → Option (List Char × List Char)
  | '-' :: rest => (scanMagnitude rest).map fun (text, rest) => ('-' :: text, rest)
  | cs => scanMagnitude cs

/-- A string after its opening quote. -/
def scanString (cs : List Char) : Option (Option String × List Char) :=
  (Quoted.scan cs).map fun (units, rest) => ((Quoted.resolve units).map String.ofList, rest)

mutual

/-- A value; the text has no blanks in front. The first argument bounds the recursion:
the length of the text is enough. -/
def scanValue : Nat → List Char → Option (Json × List Char)
  | 0, _ => none
  | fuel + 1, cs =>
    match cs with
    | 'n' :: 'u' :: 'l' :: 'l' :: rest => some (.null, rest)
    | 't' :: 'r' :: 'u' :: 'e' :: rest => some (.bool true, rest)
    | 'f' :: 'a' :: 'l' :: 's' :: 'e' :: rest => some (.bool false, rest)
    | '"' :: rest => (scanString rest).map fun (content, rest) => (.string content, rest)
    | '[' :: rest =>
      match skipBlanks rest with
      | ']' :: rest => some (.array [], rest)
      | rest => (scanItems fuel rest).map fun (items, rest) => (.array items, rest)
    | '{' :: rest =>
      match skipBlanks rest with
      | '}' :: rest => some (.object [], rest)
      | rest => (scanMembers fuel rest).map fun (members, rest) => (.object members, rest)
    | cs => (scanNumber cs).map fun (text, rest) => (.number text, rest)

/-- One value or more with commas between them, up to the closing bracket. -/
def scanItems : Nat → List Char → Option (List Json × List Char)
  | 0, _ => none
  | fuel + 1, cs => do
    let (item, rest) ← scanValue fuel cs
    match skipBlanks rest with
    | ']' :: rest => return ([item], rest)
    | ',' :: rest =>
      let (items, rest) ← scanItems fuel (skipBlanks rest)
      return (item :: items, rest)
    | _ => none

/-- One member or more with commas between them, up to the closing brace. -/
def scanMembers : Nat → List Char → Option (List (Option String × Json) × List Char)
  | 0, _ => none
  | fuel + 1, cs =>
    match cs with
    | '"' :: rest => do
      let (name, rest) ← scanString rest
      match skipBlanks rest with
      | ':' :: rest =>
        let (value, rest) ← scanValue fuel (skipBlanks rest)
        match skipBlanks rest with
        | '}' :: rest => return ([(name, value)], rest)
        | ',' :: rest =>
          let (members, rest) ← scanMembers fuel (skipBlanks rest)
          return ((name, value) :: members, rest)
        | _ => none
      | _ => none
    | _ => none

end

def ofChars? (cs : List Char) : Option Json :=
  match scanValue (2 * cs.length + 2) (skipBlanks cs) with
  | some (value, rest) => if (skipBlanks rest).isEmpty then some value else none
  | none => none

def parse? (text : String) : Option Json := ofChars? text.toList

end AffineSwarm.Json
