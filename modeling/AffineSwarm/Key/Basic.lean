import AffineSwarm.Hash.Blake3
import AffineSwarm.Text.Utf8
import AffineSwarm.Error

/-!
# Keys

Nodes of one swarm share a secret of any length, from which one key for frames and
another for audit ledgers are derived. All that frames and ledgers need of a key is
its keyed hash: a function from byte strings to 32-byte tags (`KeyedHash`).
-/

namespace AffineSwarm

def tagLength : Nat := 32

/-- A function from byte strings to tags. -/
structure KeyedHash where
  tag : List UInt8 → List UInt8
  length_tag : ∀ body, (tag body).length = tagLength

/-- Whether a received tag is the tag of a body. -/
def KeyedHash.verify (hash : KeyedHash) (body tag : List UInt8) : Bool :=
  decide (tag = hash.tag body)

structure AuthKey where
  bytes : List UInt8
  deriving DecidableEq, Repr

namespace AuthKey

def frameContext : String := "formula-swarm 2024-06 gossip frame authentication"
def ledgerContext : String := "formula-swarm 2024-06 audit ledger chaining"

/-- The key of a secret for a context. There is none for the empty secret. -/
def derive (context : String) (secret : List UInt8) : Except CryptoError AuthKey :=
  if secret.isEmpty then .error .emptyKey else .ok ⟨Blake3.deriveKey context secret⟩

def forFrames (secret : List UInt8) : Except CryptoError AuthKey := derive frameContext secret

def forLedger (secret : List UInt8) : Except CryptoError AuthKey := derive ledgerContext secret

def keyedHash (key : AuthKey) : KeyedHash :=
  ⟨Blake3.keyedHash key.bytes, fun _ => Blake3.length_keyedHash ..⟩

/-- A key is never shown. -/
def shown : String := "AuthKey(<redacted>)"

end AuthKey

end AffineSwarm
