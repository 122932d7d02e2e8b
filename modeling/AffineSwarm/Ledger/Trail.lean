import AffineSwarm.Ledger.Basic

/-!
# Audit trails

Where a node records what it took in: on a console, which keeps nothing and never
refuses, or in a ledger.
-/

namespace AffineSwarm

/-- An event on its way to a console. -/
structure Notice where
  eventType : String
  payload : String
  deriving DecidableEq, Repr

inductive AuditTrail where
  /-- The events that are still to be shown, oldest first. -/
  | console (notices : List Notice)
  | ledger (l : Ledger)

namespace AuditTrail

def append (trail : AuditTrail) (time : WallTime) (eventType payload : String) :
    Except AuditError AuditTrail :=
  match trail with
  | .console notices => .ok (.console (notices ++ [⟨eventType, payload⟩]))
  | .ledger l => .ledger <$> l.append time eventType payload

instance : AuditSink AuditTrail := ⟨AuditTrail.append⟩

/-- The records that are kept, if the trail keeps any. -/
def records? : AuditTrail → Option (List AuditRecord)
  | .console _ => none
  | .ledger l => some l.records

/-- Hand over the events to be shown. -/
def collectNotices : AuditTrail → List Notice × AuditTrail
  | .console notices => (notices, .console [])
  | .ledger l => ([], .ledger l)

end AuditTrail

end AffineSwarm
