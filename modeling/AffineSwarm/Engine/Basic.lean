import AffineSwarm.Engine.Config
import AffineSwarm.Wire.Frame

/-!
# The gossip engine

The state of one engine and how it starts. Whether a datagram leaves is decided by the
host, not by the engine: a `Socket` tells for every send, counted from the start of
the engine, whether it succeeds. Every send is noted in the outbox, successful or not,
so a run can be judged by what was attempted.
-/

namespace AffineSwarm

structure Stats where
  datagramsReceived : Nat
  datagramsDropped : Nat
  hellosSent : Nat
  formulasSent : Nat
  acksSent : Nat
  acksReceived : Nat
  sendFailures : Nat
  eventsRejected : Nat
  neighborsEvicted : Nat
  deriving DecidableEq, Repr

def Stats.zero : Stats := ⟨0, 0, 0, 0, 0, 0, 0, 0, 0⟩

inductive Counter where
  | datagramsReceived
  | datagramsDropped
  | hellosSent
  | formulasSent
  | acksSent
  | acksReceived
  | sendFailures
  | eventsRejected
  | neighborsEvicted
  deriving DecidableEq, Repr

def Stats.add (n : Nat) (s : Stats) : Counter → Stats
  | .datagramsReceived => { s with datagramsReceived := s.datagramsReceived + n }
  | .datagramsDropped => { s with datagramsDropped := s.datagramsDropped + n }
  | .hellosSent => { s with hellosSent := s.hellosSent + n }
  | .formulasSent => { s with formulasSent := s.formulasSent + n }
  | .acksSent => { s with acksSent := s.acksSent + n }
  | .acksReceived => { s with acksReceived := s.acksReceived + n }
  | .sendFailures => { s with sendFailures := s.sendFailures + n }
  | .eventsRejected => { s with eventsRejected := s.eventsRejected + n }
  | .neighborsEvicted => { s with neighborsEvicted := s.neighborsEvicted + n }

/-- Whether the send with this number, to this address, succeeds. -/
abbrev Socket := Nat → Address → Bool

structure Attempt where
  target : Address
  frame : List UInt8
  succeeded : Bool
  deriving DecidableEq, Repr

/-- What stays fixed while an engine runs. -/
structure Engine.Setup where
  nodeId : NodeId
  hash : KeyedHash
  broadcast : Option Address
  helloInterval : Nat
  staleAfter : Nat
  pollTimeout : Nat
  localAddress : Address

structure Engine where
  setup : Engine.Setup
  neighbors : Neighbor.Table
  events : EventQueue
  stats : Stats
  running : Bool
  attempts : Nat
  /-- The attempts not yet collected, oldest first. -/
  outbox : List Attempt

namespace Engine

-- ---------------------------------------------------------------------------
-- Starting
-- ---------------------------------------------------------------------------

/-- What the host answers when the socket is opened and the network thread is spawned, call
by call; a refusal gives the host's reason. -/
structure Opening where
  bound : Except String Unit
  receiveTimeout : Except String Unit
  broadcasting : Except String Unit
  localAddress : Except String Address
  spawned : Except String Unit

/-- A refusal of the host as an error of the network. -/
def refused {α : Type} : Except String α → Except SwarmError α
  | .ok a => .ok a
  | .error reason => .error (.network reason)

/-- A refusal of the host to start the network thread as an error. -/
def unspawned : Except String Unit → Except SwarmError Unit
  | .ok () => .ok ()
  | .error reason => .error (.internal ("spawn network thread: " ++ reason))

/-- The state in which an engine starts. -/
def fresh (config : EngineConfig) (localAddress : Address) : Engine where
  setup := {
    nodeId := config.nodeId
    hash := config.key.keyedHash
    broadcast := config.broadcast
    helloInterval := config.helloInterval
    staleAfter := config.staleAfter
    pollTimeout := config.pollTimeout
    localAddress := localAddress }
  neighbors := .empty config.neighborCapacity
  events := .empty config.eventCapacity
  stats := .zero
  running := true
  attempts := 0
  outbox := []

/-- Start an engine. Nothing is sent yet. -/
def start (config : EngineConfig) (opening : Opening) : Except SwarmError Engine := do
  config.validate
  match opening.bound with
  | .ok () => pure ()
  | .error reason =>
    throw (.network ("bind " ++ config.bindAddress.text ++ ": " ++ reason))
  refused opening.receiveTimeout
  if config.broadcast.isSome then refused opening.broadcasting
  let localAddress ← refused opening.localAddress
  unspawned opening.spawned
  return fresh config localAddress

def noteAttempt (e : Engine) (a : Attempt) : Engine :=
  { e with attempts := e.attempts + 1, outbox := e.outbox ++ [a] }

/-- Hand over the attempts noted so far. -/
def collectOutbox (e : Engine) : List Attempt × Engine := (e.outbox, { e with outbox := [] })

end Engine

end AffineSwarm
