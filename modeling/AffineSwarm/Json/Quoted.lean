import AffineSwarm.Bytes.Hex

/-!
# JSON strings

Between quotes, a character stands for itself unless it is a quote, a backslash or a
control character below U+0020; those are written as escapes, the short form where
there is one. Reading takes two steps. `scan` finds the closing quote and cuts the
text into units, each a character or the code of a `\u` escape; `resolve` turns units
into characters, joining the two codes of a surrogate pair. A code that stands for no
character makes the string unusable, though the text around it can still be read.
-/

namespace AffineSwarm.Json.Quoted

-- ---------------------------------------------------------------------------
-- Writing
-- ---------------------------------------------------------------------------

/-- A character as it stands between quotes. -/
def encodeChar (c : Char) : List Char :=
  match c with
  | '"' => ['\\', '"']
  | '\\' => ['\\', '\\']
  | '\n' => ['\\', 'n']
  | '\r' => ['\\', 'r']
  | '\t' => ['\\', 't']
  | '\x08' => ['\\', 'b']
  | '\x0c' => ['\\', 'f']
  | c =>
    if c.toNat < 0x20 then
      ['\\', 'u', '0', '0', Hex.digit (c.toNat / 16), Hex.digit (c.toNat % 16)]
    else [c]

/-- The text between quotes. -/
def encode (cs : List Char) : List Char := cs.flatMap encodeChar

-- ---------------------------------------------------------------------------
-- Reading
-- ---------------------------------------------------------------------------

inductive Unit where
  | char (c : Char)
  /-- The number after `\u`. -/
  | code (n : Nat)
  deriving DecidableEq, Repr

/-- The character of a short escape. -/
def shortEscape? (c : Char) : Option Char :=
  match c with
  | '"' => some '"'
  | '\\' => some '\\'
  | '/' => some '/'
  | 'b' => some '\x08'
  | 'f' => some '\x0c'
  | 'n' => some '\n'
  | 'r' => some '\r'
  | 't' => some '\t'
  | _ => none

/-- The number spelled by four hexadecimal digits. -/
def code? (a b c d : Char) : Option Nat :=
  match Hex.value? a, Hex.value? b, Hex.value? c, Hex.value? d with
  | some a, some b, some c, some d => some (((a * 16 + b) * 16 + c) * 16 + d)
  | _, _, _, _ => none

/-- Put a unit in front of what was scanned after it. -/
def consUnit (u : Unit) (scanned : Option (List Unit × List Char)) :
    Option (List Unit × List Char) :=
  scanned.map fun (us, rest) => (u :: us, rest)

/-- The units up to the closing quote, and the text after it. -/
def scan : List Char → Option (List Unit × List Char)
  | [] => none
  | '"' :: rest => some ([], rest)
  | '\\' :: 'u' :: a :: b :: c :: d :: rest =>
    match code? a b c d with
    | some n => consUnit (.code n) (scan rest)
    | none => none
  | '\\' :: c :: rest =>
    match shortEscape? c with
    | some c => consUnit (.char c) (scan rest)
    | none => none
  | c :: rest =>
    if c.toNat < 0x20 || c = '\\' then none else consUnit (.char c) (scan rest)

/-- Whether a code is the first of a surrogate pair. -/
def isLeading (n : Nat) : Bool := 0xd800 ≤ n && n < 0xdc00

/-- Whether a code is the second of a surrogate pair. -/
def isTrailing (n : Nat) : Bool := 0xdc00 ≤ n && n < 0xe000

/-- The characters of units; none if a code stands for no character. -/
def resolve : List Unit → Option (List Char)
  | [] => some []
  | .char c :: rest => (resolve rest).map (c :: ·)
  | .code n :: rest =>
    if isLeading n then
      match rest with
      | .code m :: rest =>
        if isTrailing m then
          (resolve rest).map (Char.ofNat (0x10000 + (n - 0xd800) * 0x400 + (m - 0xdc00)) :: ·)
        else none
      | _ => none
    else if isTrailing n then none
    else (resolve rest).map (Char.ofNat n :: ·)

end AffineSwarm.Json.Quoted
