import AffineSwarm.Bytes.Hex
import AffineSwarm.Decimal.Text

/-!
# Characters in messages

A message that complains about a byte shows it between single quotes, as the
character with that code. Characters that cannot be shown are written as escapes.
-/

namespace AffineSwarm.Escape

/-- The hexadecimal digits of a code below 256, without leading zeros. -/
def shortHex (n : Nat) : String :=
  String.ofList (if n < 16 then [Hex.digit n] else [Hex.digit (n / 16), Hex.digit (n % 16)])

/-- Whether the character with this code shows as itself: neither a control nor the
no-break space nor the soft hyphen. -/
def isShown (n : Nat) : Bool :=
  0x20 ≤ n && n != 0xa0 && n != 0xad && !(0x7f ≤ n && n < 0xa0)

def quotedByte (b : UInt8) : String :=
  let shown :=
    match Char.ofNat b.toNat with
    | '\x00' => "\\0"
    | '\t' => "\\t"
    | '\n' => "\\n"
    | '\r' => "\\r"
    | '\'' => "\\'"
    | '\\' => "\\\\"
    | c => if isShown b.toNat then c.toString else "\\u\x7b" ++ shortHex b.toNat ++ "\x7d"
  "'" ++ shown ++ "'"

/-- The complaint about a text that is not hexadecimal. -/
def hexMessage : Hex.Error → String
  | .oddLength => "Odd number of digits"
  | .badDigit byte position =>
    "Invalid character " ++ quotedByte byte ++ " at position " ++ Decimal.digitText position

end AffineSwarm.Escape
