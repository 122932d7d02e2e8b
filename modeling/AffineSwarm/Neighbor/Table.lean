import AffineSwarm.Address.Basic
import AffineSwarm.Error

/-!
# The neighbor table

A bounded table of the nodes heard from, one entry per node, in the order in which
they were first heard from. Hearing from a node again refreshes its entry in place;
a new node that finds the table full is not entered. Times are points on one clock,
as natural numbers.
-/

namespace AffineSwarm

/-- What is known of another node. -/
structure Neighbor where
  id : NodeId
  address : Address
  lastSeen : Nat
  /-- Failed sends since then. -/
  failures : UInt32
  deriving DecidableEq, Repr

namespace Neighbor

/-- Whether a node has been silent for longer than allowed. A time before the node was
last heard from counts as no silence. -/
def isStale (n : Neighbor) (now staleAfter : Nat) : Bool := staleAfter < now - n.lastSeen

/-- The entry of a node heard from at an address. -/
def heardAt (n : Neighbor) (address : Address) (now : Nat) : Neighbor :=
  { n with address, lastSeen := now, failures := 0 }

/-- The entry after one more failed send. The count stops at its largest value. -/
def failedOnce (n : Neighbor) : Neighbor :=
  { n with failures := if n.failures = 0xffffffff then n.failures else n.failures + 1 }

/-- The table of neighbors, first heard from first. -/
structure Table where
  capacity : Nat
  entries : List Neighbor
  deriving DecidableEq, Repr

namespace Table

def empty (capacity : Nat) : Table := ⟨capacity, []⟩

def length (t : Table) : Nat := t.entries.length

/-- The number of nodes kept unless configured otherwise. -/
def standardCapacity : Nat := 64

/-- Change the first entry that satisfies a test, if there is one. -/
def modifyFirst (test : Neighbor → Bool) (change : Neighbor → Neighbor) :
    List Neighbor → List Neighbor
  | [] => []
  | n :: rest => if test n then change n :: rest else n :: modifyFirst test change rest

def find? (t : Table) (id : NodeId) : Option Neighbor := t.entries.find? (·.id == id)

inductive Upsert where
  | inserted
  | refreshed
  deriving DecidableEq, Repr

/-- Record that a node was heard from at an address. -/
def upsert (t : Table) (id : NodeId) (address : Address) (now : Nat) :
    Except NeighborError (Upsert × Table) :=
  if t.entries.any (·.id == id) then
    .ok (.refreshed,
      { t with entries := modifyFirst (·.id == id) (·.heardAt address now) t.entries })
  else if t.capacity ≤ t.entries.length then .error (.tableFull t.capacity)
  else .ok (.inserted, { t with entries := t.entries ++ [⟨id, address, now, 0⟩] })

/-- Record that somebody at an address was heard from: the first entry with that
address is refreshed. Returns its node. -/
def touch (t : Table) (address : Address) (now : Nat) : Option NodeId × Table :=
  ((t.entries.find? (·.address == address)).map (·.id),
    { t with
      entries := modifyFirst (·.address == address) (fun n => n.heardAt n.address now) t.entries })

/-- Count a failed send to a node. Returns the new count. -/
def recordFailure (t : Table) (id : NodeId) : Except NeighborError (UInt32 × Table) :=
  match t.find? id with
  | none => .error (.notFound id)
  | some n =>
    .ok (n.failedOnce.failures,
      { t with entries := modifyFirst (·.id == id) failedOnce t.entries })

/-- Remove every entry that is stale. Returns the removed entries. -/
def evictStale (t : Table) (now staleAfter : Nat) : List Neighbor × Table :=
  (t.entries.filter (·.isStale now staleAfter),
    { t with entries := t.entries.filter fun n => !n.isStale now staleAfter })

/-- Remove the entry of a node. Returns it. -/
def remove (t : Table) (id : NodeId) : Option Neighbor × Table :=
  (t.find? id, { t with entries := t.entries.eraseP (·.id == id) })

/-- The entry whose place is `rand` modulo the number of entries. -/
def pick? (t : Table) (rand : UInt64) : Option Neighbor :=
  t.entries[rand.toNat % t.entries.length]?

end Table

end Neighbor

end AffineSwarm
