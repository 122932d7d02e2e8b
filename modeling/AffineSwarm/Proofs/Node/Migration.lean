import AffineSwarm.Proofs.Node.Reachable
import AffineSwarm.Proofs.Pool.Immigration

/-!
# Migration

The way of a formula from one node to another. The sender encodes the best formula of its
pool, whose fitness is a number in `[0, 1]` as that of every formula of a pool. So the frame
is one that every other engine under the same key reads, to the bit (`migrates_of_migration`);
the event that it queues has a fitness that neither the pool nor the engine changes any more.

## Results

* `Shares.sent` — what sharing sends is the best formula.
* `Migrates` — what becomes of a frame at another node.
* `shared_best_survives` — both together.
-/

namespace AffineSwarm

namespace Node

variable {α β : Type}

-- ---------------------------------------------------------------------------
-- Sending
-- ---------------------------------------------------------------------------

/-- Sharing is one attempt to send the best formula, if the engine runs and has a neighbor. -/
theorem outbox_shareBest (socket : Socket) (n : Node α) :
    (n.shareBest socket).2.engine.outbox = n.engine.outbox ++
      if n.engine.running then
        ((n.engine.neighbors.pick? (WordStream.doubleWord n.stream).1).map fun neighbor =>
          ⟨neighbor.address, n.engine.setup.migration n.pool.best,
            socket n.engine.attempts neighbor.address⟩).toList
      else [] := by
  rw [shareBest]
  simp only [Engine.sendToRandom, Engine.whileRunning]
  by_cases hrunning : n.engine.running = true
  · simp only [if_pos hrunning]
    exact Engine.outbox_share ..
  · simp only [if_neg hrunning]
    exact (List.append_nil _).symm

variable [AuditSink α] [AuditSink β]

theorem engine_drainEvents (n : Node α) (clock : WallClock) :
    (n.drainEvents clock).2.engine = n.engine.drainEvents.2 := by
  rw [drainEvents]
  simp only [handleEvents_engine]

/-- One of the two ways to share the best formula. -/
inductive Shares (n : Node α) : Node α → Prop
  | share (socket : Socket) : Shares n (n.shareBest socket).2
  | step (socket : Socket) (clock : WallClock) (generations : Nat) :
      Shares n (n.step socket clock generations).2

/-- What is sent then is the formula that is the best when it is over. -/
theorem Shares.sent {n n' : Node α} (h : Shares n n') :
    ∃ sent, n'.engine.outbox = n.engine.outbox ++ sent ∧
      ∀ attempt ∈ sent, attempt.frame = n.engine.setup.migration n'.pool.best := by
  have hshare : ∀ (socket : Socket) (n : Node α), ∃ sent,
      (n.shareBest socket).2.engine.outbox = n.engine.outbox ++ sent ∧
        ∀ attempt ∈ sent, attempt.frame =
          n.engine.setup.migration (n.shareBest socket).2.pool.best := by
    intro socket n
    refine ⟨_, outbox_shareBest socket n, fun attempt hattempt => ?_⟩
    rw [pool_shareBest]
    split at hattempt
    · obtain ⟨neighbor, -, rfl⟩ := Option.map_eq_some_iff.mp
        (Option.mem_toList.mp hattempt)
      rfl
    · cases hattempt
  cases h with
  | share socket => exact hshare socket n
  | step socket clock generations =>
    obtain ⟨sent, houtbox, hframe⟩ := hshare socket
      { (n.drainEvents clock).2 with pool := ((n.drainEvents clock).2.pool.tick generations).2 }
    have hengine := n.engine_drainEvents clock
    have hsetup : (n.drainEvents clock).2.engine.setup = n.engine.setup := by
      rw [hengine]
      rfl
    refine ⟨sent, houtbox.trans (congrArg (·.outbox ++ sent) hengine), fun attempt hattempt => ?_⟩
    rw [hframe attempt hattempt, ← hsetup]
    rfl

theorem Shares.reachable {n n' : Node α} (h : Shares n n') (hn : Reachable n) :
    Reachable n' := by
  cases h with
  | share socket => exact hn.share socket
  | step socket clock generations => exact hn.step socket clock generations

-- ---------------------------------------------------------------------------
-- Receiving
-- ---------------------------------------------------------------------------

/-- The engine of a node handles a datagram. -/
def receive (socket : Socket) (datagram : List UInt8) (origin : Address) (now : Nat)
    (n : Node β) : Node β :=
  { n with engine := n.engine.handleDatagram socket datagram origin now }

/-- What becomes of a frame at a node, if it is the migration of a formula. The queue of the
node stands for the events that are waiting in it, as that of every engine does. -/
structure Migrates (sender : NodeId) (f : Formula) (frame : List UInt8) (n : Node β) : Prop where
  /-- The frame is read as it was meant. -/
  decoded : Frame.decode n.engine.setup.hash (frame.take Engine.receiveLimit) =
    .ok (.migrate sender f.gene f.fitness)
  /-- With room in the queue, one event is queued, without feedback. -/
  queued : ∀ (socket : Socket) (origin : Address) (now : Nat) (waiting : List Event),
    n.engine.events.Represents waiting → waiting.length < n.engine.events.capacity →
    (n.receive socket frame origin now).engine.events.Represents
      (waiting ++ [.formula sender origin ⟨f.gene, f.fitness, .zero⟩])
  /-- A pool without the gene has gene and fitness after the event. -/
  absorbed : ∀ (m : Node β) (time : WallTime) (origin : Address) (report : DrainReport),
    m.pool.position f.gene = none →
    ⟨f.gene, f.fitness, .zero⟩ ∈ (m.handleEvent time
      (.formula sender origin ⟨f.gene, f.fitness, .zero⟩) report).2.pool.formulas
  /-- The event right after it is a duplicate. -/
  duplicate : ∀ (m : Node β) (time time' : WallTime) (origin origin' : Address)
    (report report' : DrainReport),
    let event : Address → Event := fun origin =>
      .formula sender origin ⟨f.gene, f.fitness, .zero⟩
    let after := (m.handleEvent time (event origin) report).2
    after.handleEvent time' (event origin') report' =
      ({ report' with
          formulas := report'.formulas + 1
          duplicates := report'.duplicates + 1 }, after)
  /-- Draining what was waiting and then the event takes the formula in. -/
  drained : ∀ (socket : Socket) (origin : Address) (now : Nat) (clock : WallClock)
    (waiting : List Event), n.engine.events.Represents waiting →
    waiting.length < n.engine.events.capacity →
    (n.handleEvents clock 0 waiting .zero).2.pool.position f.gene = none →
    ⟨f.gene, f.fitness, .zero⟩ ∈
      ((n.receive socket frame origin now).drainEvents clock).2.pool.formulas
  /-- A second delivery that is drained right after that is counted as a duplicate, and
  nothing else of the application changes. -/
  repeated : ∀ (socket socket' : Socket) (origin origin' : Address) (now now' : Nat)
    (clock clock' : WallClock) (waiting : List Event), n.engine.events.Represents waiting →
    waiting.length < n.engine.events.capacity →
    let once := ((n.receive socket frame origin now).drainEvents clock).2
    let twice := (once.receive socket' frame origin' now').drainEvents clock'
    twice.1 = ⟨0, 1, 0, 1, 0⟩ ∧ twice.2.pool = once.pool ∧ twice.2.audit = once.audit

section Receiving

variable {n : Node β} {f : Formula} {sender : NodeId} {waiting : List Event}
  (hwithin : Binary64.Within .zero .one f.fitness) (hforeign : sender ≠ n.engine.setup.nodeId)
include hwithin

theorem decode_migration (hash : KeyedHash) :
    Frame.decode hash (Frame.encode hash (.migration sender f)) =
      .ok (.migrate sender f.gene f.fitness) :=
  Frame.decode_encode hash (m := .migration sender f) hwithin

include hforeign

omit [AuditSink β] in
theorem represents_receive (socket : Socket) (origin : Address) (now : Nat)
    (h : n.engine.events.Represents waiting)
    (hroom : waiting.length < n.engine.events.capacity) :
    (n.receive socket (n.engine.setup.encode (.migration sender f)) origin
      now).engine.events.Represents
        (waiting ++ [.formula sender origin ⟨f.gene, f.fitness, .zero⟩]) := by
  have hqueued := Engine.represents_handleDatagram (decode_migration hwithin _) hforeign h hroom
    socket origin now
  rwa [Formula.withFitness, Binary64.clampUnit_of_within hwithin] at hqueued

/-- Draining after the frame came is applying what was waiting, and then the event. -/
theorem drainEvents_receive (socket : Socket) (origin : Address) (now : Nat) (clock : WallClock)
    (h : n.engine.events.Represents waiting)
    (hroom : waiting.length < n.engine.events.capacity) :
    ∃ engine : Engine, engine.setup = n.engine.setup ∧ engine.events.Represents [] ∧
      (n.receive socket (n.engine.setup.encode (.migration sender f)) origin
        now).drainEvents clock =
        let before := n.handleEvents clock 0 waiting .zero
        let after := before.2.handleEvent (clock waiting.length)
          (.formula sender origin ⟨f.gene, f.fitness, .zero⟩) before.1
        (after.1, { after.2 with engine }) := by
  have hqueued := represents_receive hwithin hforeign socket origin now h hroom
  refine ⟨_, ?_, Engine.represents_drainEvents hqueued, ?_⟩
  · rw [Engine.setup_drainEvents, receive, Engine.setup_handleDatagram]
  · rw [drainEvents_eq hqueued, receive, handleEvents_engine, handleEvents_append, Nat.zero_add]
    rfl

end Receiving

/-- The gene of a formula that was applied is in the pool. -/
theorem position_handleEvent (n : Node β) (f : Formula) (time : WallTime) (sender : NodeId)
    (origin : Address) (report : DrainReport) :
    ∃ slot, (n.handleEvent time (.formula sender origin f) report).2.pool.position f.gene =
      some slot := by
  rw [pool_handleEvent_formula]
  exact n.pool.position_absorb f

/-- A formula with a new gene that was applied is in the pool. -/
theorem mem_handleEvent {n : Node β} {gene : Gene} {fitness : Binary64}
    (hwithin : Binary64.Within .zero .one fitness) (hnew : n.pool.position gene = none)
    (time : WallTime) (sender : NodeId) (origin : Address) (report : DrainReport) :
    ⟨gene, fitness, .zero⟩ ∈ (n.handleEvent time
      (.formula sender origin ⟨gene, fitness, .zero⟩) report).2.pool.formulas := by
  rw [pool_handleEvent_formula]
  have hmem := Pool.mem_absorb (f := ⟨gene, fitness, .zero⟩) hnew
  rwa [Formula.withFitness, Binary64.clampUnit_of_within hwithin] at hmem

/-- The migration of a formula with a fitness in `[0, 1]` arrives at every other node. -/
theorem migrates_of_migration {n : Node β} {f : Formula} {sender : NodeId}
    (hwithin : Binary64.Within .zero .one f.fitness) (hforeign : sender ≠ n.engine.setup.nodeId) :
    Migrates sender f (n.engine.setup.encode (.migration sender f)) n where
  decoded := Frame.decode_take_receiveLimit.mpr (decode_migration hwithin _)
  queued socket origin now waiting h hroom :=
    represents_receive hwithin hforeign socket origin now h hroom
  absorbed m time origin report hnew := mem_handleEvent hwithin hnew time sender origin report
  duplicate m time time' origin origin' report report' := by
    intro event after
    obtain ⟨slot, hslot⟩ := m.position_handleEvent ⟨f.gene, f.fitness, .zero⟩ time sender origin
      report
    exact handleEvent_of_position hslot time' sender origin' report'
  drained socket origin now clock waiting h hroom hnew := by
    obtain ⟨engine, -, -, heq⟩ :=
      drainEvents_receive hwithin hforeign socket origin now clock h hroom
    rw [heq]
    exact mem_handleEvent hwithin hnew _ sender origin _
  repeated socket socket' origin origin' now now' clock clock' waiting h hroom := by
    obtain ⟨engine, hsetup, hempty, heq⟩ :=
      drainEvents_receive hwithin hforeign socket origin now clock h hroom
    rw [heq]
    intro once twice
    obtain ⟨slot, hslot⟩ : ∃ slot, once.pool.position f.gene = some slot :=
      position_handleEvent _ ⟨f.gene, f.fitness, .zero⟩ _ sender origin _
    -- the queue was drained, so it has room, and the second delivery is all that is in it
    have hforeign' : sender ≠ once.engine.setup.nodeId := hsetup ▸ hforeign
    obtain ⟨engine', -, -, htwice⟩ := drainEvents_receive hwithin hforeign' socket' origin' now'
      clock' hempty (Nat.zero_lt_of_lt hempty.head_lt)
    have hframe : once.engine.setup.encode (.migration sender f) =
        n.engine.setup.encode (.migration sender f) := by
      rw [show once.engine.setup = n.engine.setup from hsetup]
    rw [hframe] at htwice
    have hagain := handleEvent_of_position (f := ⟨f.gene, f.fitness, .zero⟩) hslot
      (clock' 0) sender origin' .zero
    simp only [handleEvents, List.length_nil, hagain] at htwice
    rw [show twice = _ from htwice]
    exact ⟨rfl, rfl, rfl⟩

-- ---------------------------------------------------------------------------
-- From node to node
-- ---------------------------------------------------------------------------

/-- **A shared formula survives the trip.** Whatever a node did before, if it shares its best
formula, by itself or at the end of a step, then what its engine tries to send is a frame
that migrates this formula (`Migrates`) to every node under the same key and of another
identity: the frame is read with the identity of the sender and with the gene and the fitness,
to the bit; one event is queued if there is room; a pool that does not have the gene has it
after the event, with that fitness; and a second delivery is counted as a duplicate and
changes neither pool nor audit trail. -/
theorem shared_best_survives (n n' : Node α) (reachable : Reachable n) (shares : Shares n n') :
    ∃ sent, n'.engine.outbox = n.engine.outbox ++ sent ∧
      ∀ attempt ∈ sent, ∀ receiver : Node β,
        receiver.engine.setup.hash = n.engine.setup.hash →
        receiver.engine.setup.nodeId ≠ n.engine.setup.nodeId →
        Migrates n.engine.setup.nodeId n'.pool.best attempt.frame receiver := by
  obtain ⟨sent, houtbox, hframe⟩ := shares.sent
  obtain ⟨config, examples, holds⟩ := (shares.reachable reachable).sound
  have hwithin := (holds.member _ n'.pool.best_mem).fitness_within
  refine ⟨sent, houtbox, fun attempt hattempt receiver hhash hforeign => ?_⟩
  have hmigration : attempt.frame =
      receiver.engine.setup.encode (.migration n.engine.setup.nodeId n'.pool.best) := by
    rw [hframe attempt hattempt, Engine.Setup.migration, Engine.Setup.encode,
      Engine.Setup.encode, hhash]
  rw [hmigration]
  exact migrates_of_migration hwithin (Ne.symm hforeign)

/-- Node 1 shares the best of a new pool with node 2. -/
theorem shared_best_survives_to_neighbor :
    let e := Engine.fresh (.standard 1 0 ⟨[]⟩) (.anyHost 7)
    let n : Node Ledger := ofParts (Pool.standard (.ofSeed 42))
      { e with neighbors := ⟨1, [⟨2, .anyHost 8, 0, 0⟩]⟩ } none
    let receiver : Node Ledger := ofParts (Pool.standard (.ofSeed 7))
      (Engine.fresh (.standard 2 0 ⟨[]⟩) (.anyHost 8)) none
    let socket : Socket := fun _ _ => true
    Reachable n ∧ ∃ frame, (n.shareBest socket).2.engine.outbox = [⟨.anyHost 8, frame, true⟩] ∧
      (receiver.receive socket frame (.anyHost 7) 0).engine.events.toList =
        [.formula 1 (.anyHost 7) ⟨n.pool.best.gene, n.pool.best.fitness, .zero⟩] := by
  intro e n receiver socket
  have reachable : Reachable n := .made _ none ⟨.ofSeed 42, .inr ⟨rfl, rfl⟩⟩
  have hpick : n.engine.neighbors.pick? (WordStream.doubleWord n.stream).1 =
      some ⟨2, .anyHost 8, 0, 0⟩ := by
    have hzero : (WordStream.doubleWord n.stream).1.toNat % 1 = 0 := Nat.mod_one _
    exact congrArg ([(⟨2, .anyHost 8, 0, 0⟩ : Neighbor)][·]?) hzero
  have houtbox := outbox_shareBest socket n
  rw [hpick] at houtbox
  obtain ⟨sent, hsent, hmigrates⟩ :=
    @shared_best_survives Ledger Ledger _ _ n _ reachable (.share socket)
  have hmem : ⟨.anyHost 8, n.engine.setup.migration n.pool.best, true⟩ ∈ sent := by
    rw [List.append_cancel_left (hsent.symm.trans houtbox)]
    exact List.mem_singleton.mpr rfl
  have hqueued := (hmigrates _ hmem receiver rfl (by decide)).queued socket (.anyHost 7) 0 []
    (Ring.represents_empty _) (by decide)
  rw [pool_shareBest] at hqueued
  exact ⟨reachable, _, houtbox, hqueued.toList_eq⟩

end Node

end AffineSwarm
