import AffineSwarm.Engine.Sending

/-!
# Receiving

What an engine does with one datagram. A datagram that is no valid frame is counted and
forgotten, and so is a frame that carries the engine's own identity.

* A greeting is recorded in the neighbor table and passed to the application; a node
  that was not known before is greeted back.
* A migration is recorded and passed to the application, and acknowledged with whether
  the event queue had room.
* An acknowledgement refreshes the neighbor at its address.

So a datagram causes at most one send, to where the datagram came from.
-/

namespace AffineSwarm.Engine

open Routine (of)
open Neighbor.Table (Upsert)

/-- The most bytes of a datagram that are looked at; twice the longest frame. -/
def receiveLimit : Nat := 2 * Frame.maxLength

/-- Record a node as heard from. The flag says whether it was entered just now; a node
that finds the table full is not. -/
def observe (id : NodeId) (address : Address) (now : Nat) : Routine Bool := do
  let outcome ← of (.upsert id address now)
  match outcome with
  | .ok .inserted => return true
  | .ok .refreshed => return false
  | .error _ => return false

/-- Queue an event for the application. The flag says whether there was room. -/
def deliver (event : Event) : Routine Bool := do
  let accepted ← of (.push event)
  if accepted then return true
  else
    of (.count .eventsRejected 1)
    return false

/-- The acknowledgement for a formula that was accepted or not. -/
def ackStatus (accepted : Bool) : UInt8 :=
  if accepted then Message.accepted else Message.queueFull

/-- React to a message of another node. -/
def react (s : Setup) (origin : Address) (now : Nat) : Message → Routine Unit
  | .hello id => do
    let isNew ← observe id origin now
    if isNew then transmitCounted .hellosSent s.greeting origin id
    let _ ← deliver (.hello id origin)
  | .migrate id gene fitness => do
    let _ ← observe id origin now
    let accepted ← deliver (.formula id origin (.withFitness gene fitness))
    transmitCounted .acksSent (s.encode (.ack (ackStatus accepted))) origin id
  | .ack _ => do
    of (.count .acksReceived 1)
    of (.touch origin now)

def handle (s : Setup) (datagram : List UInt8) (origin : Address) (now : Nat) : Routine Unit := do
  of (.count .datagramsReceived 1)
  match Frame.decode s.hash (datagram.take receiveLimit) with
  | .error _ => of (.count .datagramsDropped 1)
  | .ok message =>
    if message.sender? = some s.nodeId then return () else react s origin now message

/-- Handle one datagram without interruption. -/
def handleDatagram (socket : Socket) (datagram : List UInt8) (origin : Address) (now : Nat)
    (e : Engine) : Engine :=
  ((handle e.setup datagram origin now).run socket e).2

end AffineSwarm.Engine
