import AffineSwarm.Address.Text
import AffineSwarm.Event.Basic
import AffineSwarm.Key.Basic
import AffineSwarm.Neighbor.Table
import AffineSwarm.Text.Duration

/-!
# Engine configuration

What one gossip engine needs to run. Durations are in nanoseconds.
-/

namespace AffineSwarm

structure EngineConfig where
  nodeId : NodeId
  bindAddress : Address
  key : AuthKey
  /-- Where periodic greetings are broadcast, if anywhere. -/
  broadcast : Option Address
  helloInterval : Nat
  /-- Silence after which a neighbor is dropped. -/
  staleAfter : Nat
  /-- The longest wait for one datagram. -/
  pollTimeout : Nat
  neighborCapacity : Nat
  eventCapacity : Nat

namespace EngineConfig

def standardHelloInterval : Nat := Duration.ofSeconds 5
def standardStaleAfter : Nat := Duration.ofSeconds 30
def standardPollTimeout : Nat := Duration.ofMillis 250

/-- Where a node at a port broadcasts: to the same port, unless it is not fixed. -/
def broadcastFor (port : UInt16) : Option Address :=
  if port = 0 then none else some (.broadcast port)

/-- Listen on every interface and broadcast to the same port. -/
def standard (nodeId : NodeId) (port : UInt16) (key : AuthKey) : EngineConfig :=
  ⟨nodeId, .anyHost port, key, broadcastFor port, standardHelloInterval, standardStaleAfter,
    standardPollTimeout, Neighbor.Table.standardCapacity, EventQueue.standardCapacity⟩

/-- The first setting that cannot be used is reported. -/
def validate (c : EngineConfig) : Except SwarmError Unit :=
  if c.helloInterval = 0 then .error (.config "hello interval must be positive")
  else if c.staleAfter ≤ c.helloInterval then
    .error (.config ("stale_after (" ++ Duration.text c.staleAfter ++
      ") must exceed the hello interval (" ++ Duration.text c.helloInterval ++ ")"))
  else if c.pollTimeout = 0 then .error (.config "poll timeout must be positive")
  else if c.neighborCapacity = 0 ∨ c.eventCapacity = 0 then
    .error (.config "capacities must be positive")
  else .ok ()

end EngineConfig

end AffineSwarm
