import AffineSwarm.Engine.Receive

/-!
# The network loop

The engine's loop alternates between housekeeping and waiting. Housekeeping greets
everybody if a periodic greeting is due and then drops stale neighbors. The wait that
follows ends with the first datagram, or when its deadline has passed: the poll timeout
from now, or the next greeting if that is sooner. A silent or failed receive only looks
at the deadline.

Time is what the host's clock says whenever the loop looks at it.
-/

namespace AffineSwarm.Engine

/-- The longest single receive, after which the loop looks at the clock again. -/
def receiveSlice : Nat := Duration.ofMillis 20

/-- When the loop acts again by itself. -/
structure Schedule where
  nextHello : Nat
  deadline : Nat
  deriving DecidableEq, Repr

/-- The schedule of a loop that starts now; a greeting is due at once. -/
def Schedule.starting (now : Nat) : Schedule := ⟨now, now⟩

/-- Drop the neighbors that have been silent for too long. -/
def evictStale (s : Setup) (now : Nat) : Routine Unit := do
  let evicted ← Routine.of (.evict now s.staleAfter)
  Routine.of (.count .neighborsEvicted evicted.length)

/-- One pass of housekeeping, with a greeting if that is due. -/
def upkeep (s : Setup) (due : Bool) (now : Nat) : Routine Unit := do
  if due then
    let _ ← announce s
    evictStale s now
  else evictStale s now

/-- Housekeeping without interruption, and the wait after it. -/
def housekeeping (socket : Socket) (now : Nat) (s : Schedule) (e : Engine) : Schedule × Engine :=
  let due := s.nextHello ≤ now
  let nextHello := if due then now + e.setup.helloInterval else s.nextHello
  let e := ((upkeep e.setup due now).run socket e).2
  (⟨nextHello, now + min e.setup.pollTimeout (nextHello - now)⟩, e)

/-- What a receive brought. -/
inductive Wakeup where
  | datagram (bytes : List UInt8) (origin : Address)
  /-- No datagram came, or the receive failed. -/
  | silence

/-- One receive of the loop and what follows from it. -/
def wake (socket : Socket) (now : Nat) (wakeup : Wakeup) (s : Schedule) (e : Engine) :
    Schedule × Engine :=
  if !e.running then (s, e)
  else
    match wakeup with
    | .datagram bytes origin =>
      housekeeping socket now s (e.handleDatagram socket bytes origin now)
    | .silence => if s.deadline ≤ now then housekeeping socket now s e else (s, e)

end AffineSwarm.Engine
