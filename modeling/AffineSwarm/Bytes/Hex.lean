/-!
# Hexadecimal text

Two digits per byte. Bytes are written in lower case and read in either case; an
odd number of digits is reported before any digit is looked at.
-/

namespace AffineSwarm.Hex

/-- The lower-case digit for a value below 16. -/
def digit (n : Nat) : Char :=
  if n < 10 then Char.ofNat (48 + n) else Char.ofNat (87 + n)

/-- The value of a digit of either case. -/
def value? (c : Char) : Option Nat :=
  if '0' ≤ c ∧ c ≤ '9' then some (c.toNat - 48)
  else if 'a' ≤ c ∧ c ≤ 'f' then some (c.toNat - 87)
  else if 'A' ≤ c ∧ c ≤ 'F' then some (c.toNat - 55)
  else none

/-- The value of a digit of a base up to sixteen. -/
def valueIn? (base : Nat) (c : Char) : Option Nat :=
  match value? c with
  | some n => if n < base then some n else none
  | none => none

/-- The hexadecimal digits of a byte string. -/
def encode : List UInt8 → List Char
  | [] => []
  | b :: rest => digit (b.toNat / 16) :: digit (b.toNat % 16) :: encode rest

def text (bytes : List UInt8) : String := String.ofList (encode bytes)

/-- Why a text is not the hexadecimal form of bytes. -/
inductive Error where
  | oddLength
  /-- The byte at `position` is no digit. -/
  | badDigit (byte : UInt8) (position : Nat)
  deriving DecidableEq, Repr

/-- The value of a digit given as a byte. -/
def valueOfByte? (b : UInt8) : Option Nat := value? (Char.ofNat b.toNat)

/-- Read digit pairs, `position` being the place of the first byte. -/
def decodeFrom : Nat → List UInt8 → Except Error (List UInt8)
  | position, high :: low :: rest =>
    match valueOfByte? high, valueOfByte? low with
    | none, _ => .error (.badDigit high position)
    | some _, none => .error (.badDigit low (position + 1))
    | some h, some l => (UInt8.ofNat (h * 16 + l) :: ·) <$> decodeFrom (position + 2) rest
  | _, [_] => .error .oddLength
  | _, [] => .ok []

/-- The bytes spelled by a text, given by its own bytes. -/
def decode (text : List UInt8) : Except Error (List UInt8) :=
  if text.length % 2 = 1 then .error .oddLength else decodeFrom 0 text

end AffineSwarm.Hex
