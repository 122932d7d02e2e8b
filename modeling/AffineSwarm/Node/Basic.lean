import AffineSwarm.Engine.Call
import AffineSwarm.Json.Basic
import AffineSwarm.Ledger.Basic
import AffineSwarm.Node.Config
import AffineSwarm.Pool.Evolution
import AffineSwarm.Random.ChaCha

/-!
# Nodes

A node joins a pool and an engine. It feeds the formulas that arrive into its pool,
records those it took in, lets the pool evolve, and shares the best formula with a
random neighbor.
-/

namespace AffineSwarm

/-- A node whose audit trail, if it has one, is of type `α`. -/
structure Node (α : Type) where
  pool : Pool ChaCha.Stream
  engine : Engine
  audit : Option α
  /-- The stream that neighbors are drawn from. -/
  stream : ChaCha.Stream

/-- What became of a run of events. -/
structure DrainReport where
  hellos : Nat
  formulas : Nat
  absorbed : Nat
  duplicates : Nat
  auditFailures : Nat
  deriving DecidableEq, Repr

def DrainReport.zero : DrainReport := ⟨0, 0, 0, 0, 0⟩

structure StepReport where
  drained : DrainReport
  tick : Pool.TickReport
  sharedWith : Option NodeId
  deriving DecidableEq, Repr

namespace Node

variable {α : Type}

/-- A node of given parts. Its draws depend on its identity alone. -/
def ofParts (pool : Pool ChaCha.Stream) (engine : Engine) (audit : Option α) : Node α :=
  ⟨pool, engine, audit, .ofSeed engine.setup.nodeId.toUInt64⟩

-- ---------------------------------------------------------------------------
-- Events
-- ---------------------------------------------------------------------------

/-- The ledger's account of an accepted formula. -/
def migrationPayload (id : NodeId) (address : Address) (f : Formula) (slot : Nat) : String :=
  (Json.ofFields [("from", .ofNat id.toNat), ("address", .ofText address.text),
    ("gene", .ofText f.gene.text), ("fitness", .ofBinary64 f.fitness),
    ("slot", .ofNat slot)]).text

/-- Record an accepted formula. The flag says whether that worked; it does where nothing
is recorded. -/
def recordMigration [AuditSink α] (time : WallTime) (id : NodeId) (address : Address)
    (f : Formula) (slot : Nat) (audit : Option α) : Bool × Option α :=
  match audit with
  | none => (true, none)
  | some sink =>
    match AuditSink.append sink time formulaMigrated (migrationPayload id address f slot) with
    | .ok sink => (true, some sink)
    | .error _ => (false, some sink)

/-- Apply one event, adding to a report. -/
def handleEvent [AuditSink α] (time : WallTime) (event : Event) (report : DrainReport)
    (n : Node α) : DrainReport × Node α :=
  match event with
  | .hello _ _ => ({ report with hellos := report.hellos + 1 }, n)
  | .formula id address f =>
    let report := { report with formulas := report.formulas + 1 }
    match n.pool.absorb f with
    | (.replaced slot, pool) =>
      let (recorded, audit) := recordMigration time id address f slot n.audit
      ({ report with
          absorbed := report.absorbed + 1
          auditFailures := report.auditFailures + if recorded then 0 else 1 },
        { n with pool, audit })
    | (.alreadyPresent _, pool) =>
      ({ report with duplicates := report.duplicates + 1 }, { n with pool })

/-- Apply events in order, adding to a report. The clock is read anew for every one that is
recorded; `reading` is the number of the reading that the first of them would have. -/
def handleEvents [AuditSink α] (clock : WallClock) :
    Nat → List Event → DrainReport → Node α → DrainReport × Node α
  | _, [], report, n => (report, n)
  | reading, event :: rest, report, n =>
    let (report, n) := n.handleEvent (clock reading) event report
    handleEvents clock (reading + 1) rest report n

def drainEvents [AuditSink α] (clock : WallClock) (n : Node α) : DrainReport × Node α :=
  let (events, engine) := n.engine.drainEvents
  handleEvents clock 0 events .zero { n with engine }

-- ---------------------------------------------------------------------------
-- Sharing
-- ---------------------------------------------------------------------------

/-- Send the best formula to a random neighbor. The draw happens even if the send is
refused. -/
def shareBest (socket : Socket) (n : Node α) : Except SwarmError (Option NodeId) × Node α :=
  let (rand, stream) := WordStream.doubleWord n.stream
  let n := { n with stream }
  match n.engine.sendToRandom socket rand n.pool.best with
  | .error e => (.error e, n)
  | .ok (id, engine) => (.ok id, { n with engine })

/-- Apply the queued events, run generations, and share the best formula. -/
def step [AuditSink α] (socket : Socket) (clock : WallClock) (generations : Nat) (n : Node α) :
    Except SwarmError StepReport × Node α :=
  let (drained, n) := n.drainEvents clock
  let (tick, pool) := n.pool.tick generations
  let (shared, n) := { n with pool }.shareBest socket
  (shared.map fun id => ⟨drained, tick, id⟩, n)

-- ---------------------------------------------------------------------------
-- Starting from a configuration
-- ---------------------------------------------------------------------------

/-- Add examples in order until one is refused. -/
def addExamples : List Example → Pool ChaCha.Stream → Except PoolError (Pool ChaCha.Stream)
  | [], p => .ok p
  | e :: rest, p =>
    match p.addExample e with
    | .error error => .error error
    | .ok p => addExamples rest p

/-- Enter static neighbors in order until one is refused. -/
def addStaticNeighbors (socket : Socket) (now : Nat) :
    List (Address × NodeId) → Engine → Except SwarmError Engine
  | [], e => .ok e
  | (address, id) :: rest, e =>
    match e.addStaticNeighbor socket address id now with
    | .error error => .error error
    | .ok e => addStaticNeighbors socket now rest e

/-- The pool of a configuration, with its examples. -/
def poolOf (config : NodeConfig) : Except PoolError (Pool ChaCha.Stream) :=
  match Pool.ofConfig? config.poolConfig (ChaCha.Stream.ofSeed config.pool.seed) with
  | .error error => .error error
  | .ok pool => addExamples config.examples pool

/-- Build a node: pool, engine, static neighbors, and an audit trail if one is
configured. -/
def start (socket : Socket) (now : Nat) (opening : EngineConfig → Engine.Opening) (trail : α)
    (config : NodeConfig) : Except SwarmError (Node α) := do
  match poolOf config with
  | .error error => .error (.pool error)
  | .ok pool =>
    let engineConfig ← config.engineConfig
    let engine ← Engine.start engineConfig (opening engineConfig)
    let neighbors ← config.resolvedNeighbors
    let engine ← addStaticNeighbors socket now neighbors engine
    return ofParts pool engine (if config.audit then some trail else none)

end Node

end AffineSwarm
