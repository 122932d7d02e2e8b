import AffineSwarm.Engine.Config
import AffineSwarm.Fitness
import AffineSwarm.Key.Secret
import AffineSwarm.Pool.Config

/-!
# Node configuration

What a node is configured with, in the units of its settings, and what follows from it
for the pool and the engine.
-/

namespace AffineSwarm

/-- A neighbor that broadcasts cannot reach. -/
structure StaticNeighbor where
  id : NodeId
  address : String
  deriving DecidableEq, Repr

structure PoolSettings where
  seed : UInt64
  population : UInt64
  geneLength : UInt64
  deriving DecidableEq, Repr

def PoolSettings.standard : PoolSettings := ⟨0, 16, 6⟩

structure NodeConfig where
  nodeId : NodeId
  port : UInt16
  bindHost : String
  /-- The secret of the swarm, possibly in hexadecimal. -/
  sharedKey : String
  helloIntervalSecs : UInt64
  staleAfterSecs : UInt64
  pollTimeoutMillis : UInt64
  broadcast : Bool
  staticNeighbors : List StaticNeighbor
  pool : PoolSettings
  examples : List Example
  /-- Time between two steps of the application. -/
  shareIntervalMillis : UInt64
  generationsPerStep : UInt64
  /-- Record accepted migrations. -/
  audit : Bool
  deriving DecidableEq, Repr

namespace NodeConfig

/-- The settings of a node that is told nothing. -/
def standard : NodeConfig where
  nodeId := 1
  port := 47000
  bindHost := "0.0.0.0"
  sharedKey := ""
  helloIntervalSecs := 5
  staleAfterSecs := 30
  pollTimeoutMillis := 250
  broadcast := true
  staticNeighbors := []
  pool := .standard
  examples := []
  shareIntervalMillis := 1000
  generationsPerStep := 10
  audit := false

def poolConfig (c : NodeConfig) : PoolConfig :=
  ⟨c.pool.population.toNat, c.pool.geneLength.toNat, .half⟩

/-- The first setting that cannot be used is reported. -/
def validate (c : NodeConfig) : Except SwarmError Unit :=
  if c.sharedKey.isEmpty then .error (.config "shared_key must be set")
  else if c.helloIntervalSecs = 0 then .error (.config "hello_interval_secs must be positive")
  else if c.staleAfterSecs ≤ c.helloIntervalSecs then
    .error (.config "stale_after_secs must exceed hello_interval_secs")
  else if c.shareIntervalMillis = 0 then .error (.config "share_interval_ms must be positive")
  else
    match c.poolConfig.validate with
    | .error e => .error (.pool e)
    | .ok () => .ok ()

def secret (c : NodeConfig) : Except SwarmError (List UInt8) :=
  match Secret.ofText? c.sharedKey with
  | .error e => .error (.crypto e)
  | .ok bytes => .ok bytes

/-- The address that a text names, or an error that shows the text. -/
def resolve (address : String) : Except SwarmError Address :=
  match Address.resolve address with
  | .ok a => .ok a
  | .error e => .error (.config ("address " ++ address ++ ": " ++ e.message))

def engineConfig (c : NodeConfig) : Except SwarmError EngineConfig := do
  let bindAddress ← resolve (c.bindHost ++ ":" ++ Decimal.digitText c.port.toNat)
  let secret ← c.secret
  match AuthKey.forFrames secret with
  | .error e => .error (.crypto e)
  | .ok key =>
    return { EngineConfig.standard c.nodeId c.port key with
      bindAddress
      broadcast := if c.broadcast then some (.broadcast c.port) else none
      helloInterval := Duration.ofSeconds c.helloIntervalSecs.toNat
      staleAfter := Duration.ofSeconds c.staleAfterSecs.toNat
      pollTimeout := Duration.ofMillis c.pollTimeoutMillis.toNat }

/-- What the engine gets is the address, the key and the times of a configuration, and a
broadcast to the port of the configuration if there is to be one. -/
theorem engineConfig_eq_ok_iff {c : NodeConfig} {e : EngineConfig} :
    c.engineConfig = .ok e ↔ ∃ bindAddress bytes key,
      resolve (c.bindHost ++ ":" ++ Decimal.digitText c.port.toNat) = .ok bindAddress ∧
      c.secret = .ok bytes ∧ AuthKey.forFrames bytes = .ok key ∧
      e = { EngineConfig.standard c.nodeId c.port key with
        bindAddress
        broadcast := if c.broadcast then some (.broadcast c.port) else none
        helloInterval := Duration.ofSeconds c.helloIntervalSecs.toNat
        staleAfter := Duration.ofSeconds c.staleAfterSecs.toNat
        pollTimeout := Duration.ofMillis c.pollTimeoutMillis.toNat } := by
  rw [engineConfig]
  cases hbind : resolve (c.bindHost ++ ":" ++ Decimal.digitText c.port.toNat) with
  | error e => exact ⟨nofun, nofun⟩
  | ok bindAddress =>
    cases hsecret : c.secret with
    | error e => exact ⟨nofun, nofun⟩
    | ok bytes =>
      cases hkey : AuthKey.forFrames bytes with
      | error e => simp [Bind.bind, Except.bind, hkey]
      | ok key =>
        simp only [Bind.bind, Except.bind, hkey]
        constructor
        · intro h
          exact ⟨bindAddress, bytes, key, rfl, rfl, hkey, (Except.ok.inj h).symm⟩
        · rintro ⟨_, _, _, hbind', hsecret', hkey', rfl⟩
          cases hbind'
          cases hsecret'
          cases hkey.symm.trans hkey'
          rfl

/-- The static neighbors with their addresses resolved. -/
def resolvedNeighbors (c : NodeConfig) : Except SwarmError (List (Address × NodeId)) :=
  c.staticNeighbors.mapM fun n => do return (← resolve n.address, n.id)

end NodeConfig

end AffineSwarm
