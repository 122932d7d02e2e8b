import AffineSwarm.Key.Basic
import AffineSwarm.Text.Blank
import AffineSwarm.Text.Escape

/-!
# Configured secrets

A secret is configured as a text. After `hex:` stand hexadecimal digits, which may be
surrounded by blanks; any other text stands for its own UTF-8 bytes. No spelling gives
an empty secret.
-/

namespace AffineSwarm.Secret

/-- The text after the mark of hexadecimal secrets. -/
def hexDigits? : List Char → Option (List Char)
  | 'h' :: 'e' :: 'x' :: ':' :: rest => some rest
  | _ => none

/-- The bytes that a text stands for, possibly none. -/
def bytesOf (value : List Char) : Except CryptoError (List UInt8) :=
  match hexDigits? value with
  | some digits =>
    match Hex.decode (Utf8.encode (Blank.trim digits)) with
    | .ok bytes => .ok bytes
    | .error e => .error (.keyEncoding (Escape.hexMessage e))
  | none => .ok (Utf8.encode value)

/-- The secret that a text stands for. -/
def ofText? (value : String) : Except CryptoError (List UInt8) :=
  match bytesOf value.toList with
  | .error e => .error e
  | .ok [] => .error .emptyKey
  | .ok bytes => .ok bytes

end AffineSwarm.Secret
