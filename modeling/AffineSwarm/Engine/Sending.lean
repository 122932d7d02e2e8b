import AffineSwarm.Engine.Routine
import AffineSwarm.Wire.Frame

/-!
# Sending

The routines by which an engine sends. A failed send is counted, also against the node it
was meant for; no lock is held while a frame is handed to the socket.
-/

namespace AffineSwarm.Engine

open Routine (of)

-- ---------------------------------------------------------------------------
-- What is sent and where to
-- ---------------------------------------------------------------------------

namespace Setup

def encode (s : Setup) (m : Message) : List UInt8 := Frame.encode s.hash m

def greeting (s : Setup) : List UInt8 := s.encode (.hello s.nodeId)

/-- The migration of a formula from this node. -/
def migration (s : Setup) (f : Formula) : List UInt8 := s.encode (.migration s.nodeId f)

/-- The broadcast address as a target, if there is one. -/
def broadcastTargets (s : Setup) : List (Address × Option NodeId) :=
  s.broadcast.toList.map fun a => (a, none)

end Setup

def targets (neighbors : List Neighbor) : List (Address × Option NodeId) :=
  neighbors.map fun n => (n.address, some n.id)

-- ---------------------------------------------------------------------------
-- Routines
-- ---------------------------------------------------------------------------

/-- Count a failed send, also against the node it was meant for. -/
def blame (peer : Option NodeId) : Routine Unit := do
  of (.count .sendFailures 1)
  match peer with
  | some id => of (.recordFailure id)
  | none => return ()

def transmit (frame : List UInt8) (target : Address) (peer : Option NodeId) : Routine Bool := do
  let succeeded ← of (.send frame target)
  if succeeded then return true
  else
    blame peer
    return false

/-- Send one frame to several addresses, in order. Returns how many sends succeeded. -/
def transmitAll (frame : List UInt8) : List (Address × Option NodeId) → Routine Nat
  | [] => return 0
  | (target, peer) :: rest => do
    let succeeded ← transmit frame target peer
    let count ← transmitAll frame rest
    return count + if succeeded then 1 else 0

/-- Send one frame and count it if it left. -/
def transmitCounted (counter : Counter) (frame : List UInt8) (target : Address)
    (id : NodeId) : Routine Unit := do
  let succeeded ← transmit frame target (some id)
  if succeeded then of (.count counter 1) else return ()

/-- Greet everybody: the broadcast address first, then every neighbor. Returns how many
frames left. -/
def announce (s : Setup) : Routine Nat := do
  let broadcast ← transmitAll s.greeting s.broadcastTargets
  let neighbors ← of .snapshot
  let sent ← transmitAll s.greeting (targets neighbors)
  of (.count .hellosSent (broadcast + sent))
  return broadcast + sent

end AffineSwarm.Engine
