import AffineSwarm.Decimal.Text
import AffineSwarm.Bytes.Hex

/-!
# Errors

What can go wrong, by part of the swarm, and the text of each error. Calls that touch
several parts report a `SwarmError`, whose text names the part.
-/

namespace AffineSwarm

/-- The identity of a node. -/
abbrev NodeId := UInt32

open Decimal (digitText)

inductive PoolError where
  | examplesFull (capacity : Nat)
  | notFound
  | invalidGene (reason : String)
  | invalidFeedback (delta : Binary64)
  | invalidConfig (reason : String)
  | notConverged (rounds : Nat) (bestFitness : Binary64)
  deriving DecidableEq, Repr

def PoolError.message : PoolError → String
  | .examplesFull capacity =>
    "Example ring full (" ++ digitText capacity ++ " examples); clear it first"
  | .notFound => "Formula not found in pool"
  | .invalidGene reason => "Invalid gene: " ++ reason
  | .invalidFeedback delta =>
    "Feedback delta must be finite, got " ++ Decimal.Layout.plain.text delta
  | .invalidConfig reason => "Invalid pool configuration: " ++ reason
  | .notConverged rounds bestFitness =>
    "Pool did not converge after " ++ digitText rounds ++ " rounds (best fitness " ++
      Decimal.fixed 3 bestFitness ++ ")"

inductive WireError where
  | truncated (length : Nat)
  | authentication
  | unknownTag (tag : UInt8)
  | malformed (reason : String)
  deriving DecidableEq, Repr

def WireError.message : WireError → String
  | .truncated length => "Frame truncated: " ++ digitText length ++ " bytes"
  | .authentication => "Frame authentication failed"
  | .unknownTag tag => "Unknown message tag: 0x" ++ Hex.text [tag]
  | .malformed reason => "Malformed frame: " ++ reason

inductive NeighborError where
  | tableFull (capacity : Nat)
  | notFound (id : NodeId)
  deriving DecidableEq, Repr

def NeighborError.message : NeighborError → String
  | .tableFull capacity => "Neighbor table full (" ++ digitText capacity ++ " entries)"
  | .notFound id => "Neighbor not found: " ++ digitText id.toNat

inductive AuditError where
  | ledgerFull (capacity : Nat)
  | sink (reason : String)
  deriving DecidableEq, Repr

def AuditError.message : AuditError → String
  | .ledgerFull capacity => "Audit ledger full (" ++ digitText capacity ++ " records)"
  | .sink reason => "Audit sink failed: " ++ reason

inductive CryptoError where
  | emptyKey
  | keyEncoding (reason : String)
  deriving DecidableEq, Repr

def CryptoError.message : CryptoError → String
  | .emptyKey => "Shared key must not be empty"
  | .keyEncoding reason => "Invalid key encoding: " ++ reason

inductive SwarmError where
  | pool (error : PoolError)
  | wire (error : WireError)
  | neighbor (error : NeighborError)
  | audit (error : AuditError)
  | crypto (error : CryptoError)
  | queueFull (capacity : Nat)
  | notRunning
  | network (reason : String)
  | config (reason : String)
  | serialization (reason : String)
  | internal (reason : String)
  deriving DecidableEq, Repr

def SwarmError.message : SwarmError → String
  | .pool error => "Pool error: " ++ error.message
  | .wire error => "Wire error: " ++ error.message
  | .neighbor error => "Neighbor error: " ++ error.message
  | .audit error => "Audit error: " ++ error.message
  | .crypto error => "Cryptographic error: " ++ error.message
  | .queueFull capacity => "Event queue full (" ++ digitText capacity ++ " slots)"
  | .notRunning => "Gossip engine is not running"
  | .network reason => "Network error: " ++ reason
  | .config reason => "Configuration error: " ++ reason
  | .serialization reason => "Serialization error: " ++ reason
  | .internal reason => "Internal error: " ++ reason

end AffineSwarm
