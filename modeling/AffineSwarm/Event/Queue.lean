import AffineSwarm.Event.Basic
import AffineSwarm.Text.Duration

/-!
# Calls on the event queue

The threads of an engine share one queue of events, behind a lock. To add an event, to take
the oldest one and to take all of them is one access each. To wait for an event is to look
at the queue again and again up to a deadline; while one thread waits, the others go on
using the queue. The deadline is computed before the first look, and the call breaks off if
the clock cannot show it.

The calls are written over the operations that a queue offers, whatever its states are, so
that the ring can be held against other queues.
-/

namespace AffineSwarm

/-- The refusal of a full queue, which hands the event back. -/
structure QueueFull where
  event : Event
  deriving DecidableEq

def QueueFull.message (_ : QueueFull) : String := EventQueue.fullMessage

namespace EventQueue

-- ---------------------------------------------------------------------------
-- Deadlines
-- ---------------------------------------------------------------------------

/-- The first time that the clock cannot show, since its seconds are a signed word of 64
bits. -/
def clockLimit : Nat := Duration.ofSeconds (1 <<< 63)

/-- The time when a timeout is over, unless the clock cannot show it. -/
def deadline? (now timeout : Nat) : Option Nat :=
  if now + timeout < clockLimit then some (now + timeout) else none

-- ---------------------------------------------------------------------------
-- Calls
-- ---------------------------------------------------------------------------

/-- What a thread does to a queue in one go. -/
inductive Access where
  | push (event : Event)
  | pop
  | drain

/-- One wait of a thread for an event. -/
structure Wait where
  /-- What other threads do meanwhile. -/
  meanwhile : List Access
  /-- Whether the thread is woken by another one. -/
  notified : Bool
  /-- The time when the wait is over. -/
  ended : Nat

/-- Whether a wait is over because the deadline has passed. -/
def Wait.timedOut (deadline : Nat) (wait : Wait) : Bool :=
  !wait.notified && decide (deadline ≤ wait.ended)

inductive Call where
  | access (access : Access)
  /-- Take the oldest event, and wait for one if there is none. After the waits that are told
  of, nothing happens any more up to the deadline. -/
  | popTimeout (now timeout : Nat) (waits : List Wait)

/-- What a thread gets from an access. -/
inductive Outcome where
  | pushed (result : Except QueueFull Unit)
  | popped (event : Option Event)
  | drained (events : List Event)
  /-- The call broke off because the clock cannot show its deadline. -/
  | noDeadline

-- ---------------------------------------------------------------------------
-- Queues
-- ---------------------------------------------------------------------------

/-- The operations of a queue with states in `σ`. An operation that breaks off gives
nothing. -/
structure Operations (σ : Type) where
  push : Event → σ → Option (Except QueueFull Unit × σ)
  pop : σ → Option (Option Event × σ)
  drain : σ → Option (List Event × σ)

namespace Operations

variable {σ : Type} (ops : Operations σ)

def perform : Access → σ → Option (Outcome × σ)
  | .push event, q => do
    let (result, q) ← ops.push event q
    return (.pushed result, q)
  | .pop, q => do
    let (event, q) ← ops.pop q
    return (.popped event, q)
  | .drain, q => do
    let (events, q) ← ops.drain q
    return (.drained events, q)

def performAll : List Access → σ → Option (List Outcome × σ)
  | [], q => return ([], q)
  | a :: rest, q => do
    let (outcome, q) ← ops.perform a q
    let (outcomes, q) ← performAll rest q
    return (outcome :: outcomes, q)

/-- Look at the queue, and again after every wait, until there is an event or the deadline
has passed. Returns what the other threads got meanwhile, and then what came of the call. -/
def popUntil (deadline : Nat) : List Wait → σ → Option (List Outcome × σ)
  | [], q => ops.performAll [.pop] q
  | wait :: waits, q => do
    let (event, q) ← ops.pop q
    match event with
    | some event => return ([.popped (some event)], q)
    | none => do
      let (meanwhile, q) ← ops.performAll wait.meanwhile q
      let last := if wait.timedOut deadline then ops.performAll [.pop] q
        else popUntil deadline waits q
      let (outcomes, q) ← last
      return (meanwhile ++ outcomes, q)

/-- Take the oldest event, or wait for one. The deadline is computed first. -/
def popTimeout (now timeout : Nat) (waits : List Wait) (q : σ) : Option (List Outcome × σ) :=
  match deadline? now timeout with
  | none => return ([.noDeadline], q)
  | some deadline => ops.popUntil deadline waits q

def make : Call → σ → Option (List Outcome × σ)
  | .access a, q => ops.performAll [a] q
  | .popTimeout now timeout waits, q => ops.popTimeout now timeout waits q

/-- Make calls one after the other. Returns what came of each. -/
def makeAll : List Call → σ → Option (List (List Outcome) × σ)
  | [], q => return ([], q)
  | c :: rest, q => do
    let (outcomes, q) ← ops.make c q
    let (more, q) ← makeAll rest q
    return (outcomes :: more, q)

end Operations

-- ---------------------------------------------------------------------------
-- The ring
-- ---------------------------------------------------------------------------

/-- The most bytes that an array may have. -/
def arrayLimit : Nat := 0x7fffffffffffffff

/-- A new queue of a capacity, where zero counts as one. There is none if its slots, of so
many bytes each, are more than an array may have. -/
def create? (slotBytes capacity : Nat) : Option EventQueue :=
  if max capacity 1 * slotBytes ≤ arrayLimit then some (.empty capacity) else none

/-- Add an event at the end, or get it back. -/
def offer (event : Event) (q : EventQueue) : Except QueueFull Unit × EventQueue :=
  let (accepted, q) := q.push event
  (if accepted then .ok () else .error ⟨event⟩, q)

/-- The operations of the ring. They never break off. -/
def operations : Operations EventQueue where
  push event q := some (q.offer event)
  pop q := some q.pop
  drain q := some q.drain

end EventQueue

end AffineSwarm
