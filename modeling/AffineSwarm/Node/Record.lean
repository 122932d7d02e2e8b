import AffineSwarm.Fitness.Json
import AffineSwarm.Node.Config

/-!
# The node configuration as a record

Every field of a node configuration has a value to fall back on, and so has every field
of the pool settings; static neighbors and examples must be complete.
-/

namespace AffineSwarm

namespace StaticNeighbor

def toJson (n : StaticNeighbor) : Json :=
  .ofFields [("id", .ofNat n.id.toNat), ("address", .ofText n.address)]

def read? {V : Type} (r : Reader V) (v : V) : Option StaticNeighbor := do
  let fields ← r.fields ["id", "address"] v
  match fields with
  | [id, address] =>
    let id ← Reader.required (r.unsigned 32) id
    let address ← Reader.required r.text address
    return ⟨UInt32.ofNat id, address⟩
  | _ => none

end StaticNeighbor

namespace PoolSettings

def toJson (p : PoolSettings) : Json :=
  .ofFields [("seed", .ofNat p.seed.toNat), ("population", .ofNat p.population.toNat),
    ("gene_len", .ofNat p.geneLength.toNat)]

def read? {V : Type} (r : Reader V) (v : V) : Option PoolSettings := do
  let natural := fun (fallback : UInt64) (field : Option V) =>
    Reader.withDefault fallback (fun v => (r.unsigned 64 v).map UInt64.ofNat) field
  let fields ← r.fields ["seed", "population", "gene_len"] v
  match fields with
  | [seed, population, geneLength] =>
    return ⟨← natural standard.seed seed, ← natural standard.population population,
      ← natural standard.geneLength geneLength⟩
  | _ => none

end PoolSettings

namespace NodeConfig

def toJson (c : NodeConfig) : Json :=
  .ofFields [
    ("node_id", .ofNat c.nodeId.toNat),
    ("port", .ofNat c.port.toNat),
    ("bind_host", .ofText c.bindHost),
    ("shared_key", .ofText c.sharedKey),
    ("hello_interval_secs", .ofNat c.helloIntervalSecs.toNat),
    ("stale_after_secs", .ofNat c.staleAfterSecs.toNat),
    ("poll_timeout_ms", .ofNat c.pollTimeoutMillis.toNat),
    ("broadcast", .bool c.broadcast),
    ("static_neighbors", .array (c.staticNeighbors.map StaticNeighbor.toJson)),
    ("pool", c.pool.toJson),
    ("examples", .array (c.examples.map Example.toJson)),
    ("share_interval_ms", .ofNat c.shareIntervalMillis.toNat),
    ("generations_per_step", .ofNat c.generationsPerStep.toNat),
    ("audit", .bool c.audit)]

def fieldNames : List String :=
  ["node_id", "port", "bind_host", "shared_key", "hello_interval_secs", "stale_after_secs",
    "poll_timeout_ms", "broadcast", "static_neighbors", "pool", "examples",
    "share_interval_ms", "generations_per_step", "audit"]

def read? {V : Type} (r : Reader V) (v : V) : Option NodeConfig := do
  let natural := fun (fallback : UInt64) (field : Option V) =>
    Reader.withDefault fallback (fun v => (r.unsigned 64 v).map UInt64.ofNat) field
  let fields ← r.fields fieldNames v
  match fields with
  | [nodeId, port, bindHost, sharedKey, helloInterval, staleAfter, pollTimeout, broadcast,
      staticNeighbors, pool, examples, shareInterval, generations, audit] =>
    return {
      nodeId := ← Reader.withDefault standard.nodeId
        (fun v => (r.unsigned 32 v).map UInt32.ofNat) nodeId
      port := ← Reader.withDefault standard.port
        (fun v => (r.unsigned 16 v).map UInt16.ofNat) port
      bindHost := ← Reader.withDefault standard.bindHost r.text bindHost
      sharedKey := ← Reader.withDefault standard.sharedKey r.text sharedKey
      helloIntervalSecs := ← natural standard.helloIntervalSecs helloInterval
      staleAfterSecs := ← natural standard.staleAfterSecs staleAfter
      pollTimeoutMillis := ← natural standard.pollTimeoutMillis pollTimeout
      broadcast := ← Reader.withDefault standard.broadcast r.bool broadcast
      staticNeighbors := ← Reader.withDefault standard.staticNeighbors
        (r.list (StaticNeighbor.read? r)) staticNeighbors
      pool := ← Reader.withDefault standard.pool (PoolSettings.read? r) pool
      examples := ← Reader.withDefault standard.examples (r.list (Example.read? r)) examples
      shareIntervalMillis := ← natural standard.shareIntervalMillis shareInterval
      generationsPerStep := ← natural standard.generationsPerStep generations
      audit := ← Reader.withDefault standard.audit r.bool audit }
  | _ => none

/-- The configuration that a JSON text spells, read strictly. -/
def parse? (text : String) : Option NodeConfig := Json.parse? text >>= read? Json.strict

end NodeConfig

end AffineSwarm
