import AffineSwarm.Address.Basic
import AffineSwarm.Formula
import AffineSwarm.Error
import AffineSwarm.Event.Ring

/-!
# Events

What the network has for the application: greetings and migrated formulas. They wait
in a bounded FIFO.
-/

namespace AffineSwarm

inductive Event where
  /-- A node said that it is alive. -/
  | hello (id : NodeId) (address : Address)
  /-- A node migrated a formula. -/
  | formula (id : NodeId) (address : Address) (formula : Formula)
  deriving DecidableEq

def Event.sender : Event → NodeId
  | .hello id _ => id
  | .formula id _ _ => id

abbrev EventQueue := Ring Event

/-- The number of events that may wait unless configured otherwise. -/
def EventQueue.standardCapacity : Nat := 32

/-- The complaint of a full queue. -/
def EventQueue.fullMessage : String := "Event queue full"

end AffineSwarm
