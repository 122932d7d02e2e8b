/-!
# UTF-8

The bytes of a text. Hashes and secrets are taken over these bytes.
-/

namespace AffineSwarm.Utf8

def encode (cs : List Char) : List UInt8 := cs.flatMap String.utf8EncodeChar

def bytes (text : String) : List UInt8 := encode text.toList

end AffineSwarm.Utf8
