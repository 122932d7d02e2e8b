import AffineSwarm.Node.Basic
import AffineSwarm.Proofs.Engine.Uninterrupted
import AffineSwarm.Proofs.Pool.Invariant

/-!
# What nodes reach

A node starts with a pool that was just made, and with any engine and audit trail. From then
on calls are made on its pool, events are applied, the queue is drained and the best formula
is shared; and meanwhile its engine does what it does, of which nothing is asked here but
that it stays the engine of the same node under the same key (`Node.Reachable`). A node that
starts from a configuration is one of these (`reachable_of_start`).

Whatever a node does, its pool is one that a session reaches (`Reachable.holds`).
-/

namespace AffineSwarm.Node

variable {α : Type} [AuditSink α]

-- ---------------------------------------------------------------------------
-- Events
-- ---------------------------------------------------------------------------

/-- Applying a formula is absorbing it, whatever is recorded of that. -/
theorem pool_handleEvent_formula (n : Node α) (time : WallTime) (id : NodeId)
    (address : Address) (f : Formula) (report : DrainReport) :
    (n.handleEvent time (.formula id address f) report).2.pool = (n.pool.absorb f).2 := by
  rw [handleEvent]
  rcases n.pool.absorb f with ⟨_ | _, pool⟩ <;> rfl

/-- A formula whose gene the pool has is counted as a duplicate, and that is all. -/
theorem handleEvent_of_position {n : Node α} {f : Formula} {slot : Nat}
    (h : n.pool.position f.gene = some slot) (time : WallTime) (id : NodeId)
    (address : Address) (report : DrainReport) :
    n.handleEvent time (.formula id address f) report =
      ({ report with formulas := report.formulas + 1, duplicates := report.duplicates + 1 },
        n) := by
  rw [handleEvent]
  simp only [Pool.absorb, h]

/-- Applying an event leaves the engine alone and does not look at it. -/
theorem handleEvent_engine (n : Node α) (engine : Engine) (time : WallTime) (event : Event)
    (report : DrainReport) :
    { n with engine }.handleEvent time event report =
      ((n.handleEvent time event report).1,
        { (n.handleEvent time event report).2 with engine }) := by
  cases event with
  | hello id address => rfl
  | formula id address f =>
    simp only [handleEvent]
    rcases n.pool.absorb f with ⟨_ | _, pool⟩ <;> rfl

theorem handleEvents_engine (n : Node α) (engine : Engine) (clock : WallClock) (reading : Nat)
    (events : List Event) (report : DrainReport) :
    { n with engine }.handleEvents clock reading events report =
      ((n.handleEvents clock reading events report).1,
        { (n.handleEvents clock reading events report).2 with engine }) := by
  induction events generalizing n reading report with
  | nil => rfl
  | cons event rest ih =>
    rw [handleEvents, handleEvents, handleEvent_engine]
    exact ih ..

/-- Draining the queue is applying what is in it. -/
theorem drainEvents_eq {n : Node α} {waiting : List Event}
    (h : n.engine.events.Represents waiting) (clock : WallClock) :
    n.drainEvents clock = ((n.handleEvents clock 0 waiting .zero).1,
      { (n.handleEvents clock 0 waiting .zero).2 with engine := n.engine.drainEvents.2 }) := by
  have htaken : n.engine.drainEvents.1 = waiting := h.drain.1
  rw [drainEvents]
  simp only [htaken]
  exact handleEvents_engine ..

theorem handleEvents_append (n : Node α) (clock : WallClock) (reading : Nat)
    (events more : List Event) (report : DrainReport) :
    n.handleEvents clock reading (events ++ more) report =
      (n.handleEvents clock reading events report).2.handleEvents clock (reading + events.length)
        more (n.handleEvents clock reading events report).1 := by
  induction events generalizing n reading report with
  | nil => rfl
  | cons event rest ih =>
    rw [List.length_cons, Nat.add_comm rest.length, ← Nat.add_assoc]
    exact ih ..

-- ---------------------------------------------------------------------------
-- Sharing
-- ---------------------------------------------------------------------------

omit [AuditSink α] in
theorem pool_shareBest (socket : Socket) (n : Node α) :
    (n.shareBest socket).2.pool = n.pool := by
  rw [shareBest]
  simp only
  split <;> rfl

-- ---------------------------------------------------------------------------
-- Reachability
-- ---------------------------------------------------------------------------

/-- The nodes that are reached. -/
inductive Reachable : Node α → Prop
  | made {config : PoolConfig} {pool : Pool ChaCha.Stream} (engine : Engine) (audit : Option α)
      (fresh : Pool.Fresh config pool) : Reachable (.ofParts pool engine audit)
  | command {n : Node α} (h : Reachable n) (c : Pool.Command) :
      Reachable { n with pool := (n.pool.perform c).2 }
  | event {n : Node α} (h : Reachable n) (time : WallTime) (event : Event)
      (report : DrainReport) : Reachable (n.handleEvent time event report).2
  | drain {n : Node α} (h : Reachable n) (clock : WallClock) :
      Reachable (n.drainEvents clock).2
  | share {n : Node α} (h : Reachable n) (socket : Socket) : Reachable (n.shareBest socket).2
  | step {n : Node α} (h : Reachable n) (socket : Socket) (clock : WallClock)
      (generations : Nat) : Reachable (n.step socket clock generations).2
  /-- The engine did something, by itself or because it was called. -/
  | engine {n : Node α} (h : Reachable n) (engine : Engine)
      (same : engine.setup = n.engine.setup) : Reachable { n with engine }

/-- A pool that some session reaches, with genes of any length. -/
def Sound (p : Pool ChaCha.Stream) : Prop :=
  ∃ config examples, Pool.Holds config (fun _ => True) examples p

theorem sound_handleEvent {n : Node α} (h : Sound n.pool) (time : WallTime) (event : Event)
    (report : DrainReport) : Sound (n.handleEvent time event report).2.pool := by
  obtain ⟨config, examples, holds⟩ := h
  cases event with
  | hello id address => exact ⟨config, examples, holds⟩
  | formula id address f =>
    rw [pool_handleEvent_formula]
    exact ⟨config, examples, holds.absorb trivial⟩

theorem sound_handleEvents {n : Node α} (h : Sound n.pool) (clock : WallClock) (reading : Nat)
    (events : List Event) (report : DrainReport) :
    Sound (n.handleEvents clock reading events report).2.pool := by
  induction events generalizing n reading report with
  | nil => exact h
  | cons event rest ih => exact ih (sound_handleEvent h (clock reading) event report) _ _

theorem sound_drainEvents {n : Node α} (h : Sound n.pool) (clock : WallClock) :
    Sound (n.drainEvents clock).2.pool :=
  sound_handleEvents (n := { n with engine := n.engine.drainEvents.2 }) h clock 0 _ _

theorem pool_step (socket : Socket) (clock : WallClock) (generations : Nat) (n : Node α) :
    (n.step socket clock generations).2.pool =
      ((n.drainEvents clock).2.pool.tick generations).2 :=
  pool_shareBest ..

/-- The pool of a node is sound, by induction on what the node did. -/
theorem Reachable.sound {n : Node α} (h : Reachable n) : Sound n.pool := by
  induction h with
  | made engine audit fresh => exact ⟨_, _, fresh.holds trivial⟩
  | command _ c ih =>
    obtain ⟨config, examples, holds⟩ := ih
    exact ⟨config, _, holds.perform c fun _ _ => trivial⟩
  | event _ time event report ih => exact sound_handleEvent ih time event report
  | drain _ clock ih => exact sound_drainEvents ih clock
  | share _ socket ih =>
    rw [pool_shareBest]
    exact ih
  | step _ socket clock generations ih =>
    obtain ⟨config, examples, holds⟩ := sound_drainEvents ih clock
    rw [pool_step]
    exact ⟨config, examples, holds.tick generations⟩
  | engine _ engine same ih => exact ih

-- ---------------------------------------------------------------------------
-- Starting
-- ---------------------------------------------------------------------------

theorem reachable_addExamples {n : Node α} (h : Reachable n) {examples : List Example}
    {pool : Pool ChaCha.Stream} (hadded : addExamples examples n.pool = .ok pool) :
    Reachable { n with pool } := by
  induction examples generalizing n with
  | nil =>
    cases hadded
    exact h
  | cons e rest ih =>
    rw [addExamples] at hadded
    cases hexample : n.pool.addExample e with
    | error error =>
      rw [hexample] at hadded
      cases hadded
    | ok p =>
      rw [hexample] at hadded
      have hcommand := h.command (.addExample e)
      simp only [Pool.perform, hexample] at hcommand
      exact ih (n := { n with pool := p }) hcommand hadded

/-- A pool that is made of a configuration is a fresh one with the examples of that. -/
theorem reachable_ofParts {config : NodeConfig} {pool : Pool ChaCha.Stream}
    (h : poolOf config = .ok pool) (engine : Engine) (audit : Option α) :
    Reachable (ofParts pool engine audit) := by
  rw [poolOf] at h
  split at h
  · cases h
  · rename_i p hmade
    have hfresh : Reachable (ofParts p engine audit) := .made engine audit ⟨_, .inl hmade⟩
    exact reachable_addExamples hfresh h

/-- A node that starts from a configuration is one that is reached. -/
theorem reachable_of_start {socket : Socket} {now : Nat}
    {opening : EngineConfig → Engine.Opening} {trail : α} {config : NodeConfig} {n : Node α}
    (h : start socket now opening trail config = .ok n) : Reachable n := by
  simp only [start, bind, Except.bind, pure, Except.pure] at h
  split at h
  · cases h
  rename_i pool hpool
  -- neither the engine nor its static neighbors matter, if only they come about
  repeat
    split at h
    · cases h
  cases h
  exact reachable_ofParts hpool _ _

end AffineSwarm.Node
