import AffineSwarm.Key.Basic
import AffineSwarm.Bytes.BigEndian

/-!
# The audit ledger

Accepted migrations are recorded in a bounded, append-only ledger. Every record
carries the tag of its predecessor and a tag over that and its own content, so a
record can be neither changed nor removed without breaking the tags after it.
-/

namespace AffineSwarm

/-- Milliseconds since the epoch. -/
abbrev WallTime := Int64

/-- What the clock of the host shows, reading by reading. -/
abbrev WallClock := Nat → WallTime

structure AuditRecord where
  index : UInt64
  timestamp : WallTime
  /-- The tag of the record before, zeros for the first. -/
  previous : List UInt8
  tag : List UInt8
  eventType : String
  payload : String
  deriving DecidableEq, Repr

/-- The event type of an accepted migration. -/
def formulaMigrated : String := "formula_migrated"

/-- Something that events can be recorded in. -/
class AuditSink (α : Type) where
  /-- Record an event at a time. -/
  append : α → WallTime → (eventType payload : String) → Except AuditError α

/-- A bounded chain of records. -/
structure Ledger where
  hash : KeyedHash
  capacity : Nat
  records : List AuditRecord

namespace Ledger

/-- The number of records kept unless configured otherwise. -/
def standardCapacity : Nat := 4096

def empty (hash : KeyedHash) (capacity : Nat) : Ledger := ⟨hash, capacity, []⟩

/-- The bytes that a record's tag is taken over. -/
def linkBytes (previous : List UInt8) (index : UInt64) (timestamp : WallTime)
    (eventType payload : String) : List UInt8 :=
  previous ++ BigEndian.ofNat 8 index.toNat ++ BigEndian.ofNat 8 timestamp.toUInt64.toNat ++
    BigEndian.ofNat 4 (Utf8.bytes eventType).length ++ Utf8.bytes eventType ++
    Utf8.bytes payload

/-- The tag that the next record refers to. -/
def lastTag (l : Ledger) : List UInt8 :=
  match l.records.getLast? with
  | some r => r.tag
  | none => List.replicate tagLength 0

/-- The record that an event would get. -/
def nextRecord (l : Ledger) (timestamp : WallTime) (eventType payload : String) : AuditRecord :=
  let index := UInt64.ofNat l.records.length
  ⟨index, timestamp, l.lastTag,
    l.hash.tag (linkBytes l.lastTag index timestamp eventType payload), eventType, payload⟩

/-- Append an event. A full ledger refuses it. -/
def append (l : Ledger) (timestamp : WallTime) (eventType payload : String) :
    Except AuditError Ledger :=
  if l.capacity ≤ l.records.length then .error (.ledgerFull l.capacity)
  else .ok { l with records := l.records ++ [l.nextRecord timestamp eventType payload] }

instance : AuditSink Ledger := ⟨Ledger.append⟩

end Ledger

end AffineSwarm
