import AffineSwarm.Engine.Call
import AffineSwarm.Proofs.Engine.Steps

/-!
# Work that nobody interrupts

A routine that nobody interrupts makes its accesses one after the other (`run_bind`). What
none of its accesses changes, it leaves as it is (`Routine.All.run_eq`). Sending a frame is
one attempt (`outbox_transmitCounted`), so sharing a formula is one if there is a neighbor
(`outbox_share`); and a migration that arrives is one event in the queue
(`represents_handleDatagram`).
-/

namespace AffineSwarm.Engine

variable {α β : Type}

-- ---------------------------------------------------------------------------
-- Runs of routines
-- ---------------------------------------------------------------------------

/-- One routine after the other, if nobody interrupts them. -/
theorem run_bind (socket : Socket) (r : Routine α) (rest : α → Routine β) (e : Engine) :
    (r >>= rest).run socket e = (rest (r.run socket e).1).run socket (r.run socket e).2 := by
  induction r generalizing e with
  | done result => rfl
  | access a next ih => exact ih _ _

/-- What no access of a routine changes, the routine leaves as it is. -/
theorem Routine.All.run_eq {allowed : Access → Prop} {r : Routine α} (h : r.All allowed)
    (view : Engine → β) {socket : Socket}
    (hkeep : ∀ e a, allowed a → view (a.perform socket e).2 = view e) (e : Engine) :
    view (r.run socket e).2 = view e := by
  induction r generalizing e with
  | done result => rfl
  | access a next ih => exact (ih _ (h.2 _) _).trans (hkeep e a h.1)

theorem setup_run (socket : Socket) (r : Routine α) (e : Engine) :
    (r.run socket e).2.setup = e.setup := by
  induction r generalizing e with
  | done result => rfl
  | access a next ih => exact (ih ..).trans (setup_perform ..)

theorem setup_handleDatagram (e : Engine) (socket : Socket) (datagram : List UInt8)
    (origin : Address) (now : Nat) :
    (e.handleDatagram socket datagram origin now).setup = e.setup :=
  setup_run ..

-- ---------------------------------------------------------------------------
-- What is sent
-- ---------------------------------------------------------------------------

/-- Sending a frame is one attempt; blaming somebody for its failure is none. -/
theorem outbox_transmitCounted (socket : Socket) (e : Engine) (counter : Counter)
    (frame : List UInt8) (target : Address) (id : NodeId) :
    ((transmitCounted counter frame target id).run socket e).2.outbox =
      e.outbox ++ [⟨target, frame, socket e.attempts target⟩] := by
  rw [transmitCounted, transmit, run_bind, run_bind]
  simp only [Routine.of, Routine.run, Access.perform, noteAttempt]
  cases socket e.attempts target with
  | true => rfl
  | false =>
    simp only [blame, run_bind, Routine.of, Routine.run, Access.perform, Bool.false_eq_true,
      if_false, pure]
    split <;> rfl

/-- Sharing a formula is one attempt, to the neighbor that is picked. -/
theorem outbox_share (socket : Socket) (s : Setup) (rand : UInt64) (f : Formula) (e : Engine) :
    ((share s rand f).run socket e).2.outbox = e.outbox ++
      ((e.neighbors.pick? rand).map fun n =>
        ⟨n.address, s.migration f, socket e.attempts n.address⟩).toList := by
  rw [share, run_bind]
  simp only [Routine.of, Routine.run, Access.perform]
  cases e.neighbors.pick? rand with
  | none => exact (List.append_nil _).symm
  | some n =>
    simp only [run_bind]
    exact outbox_transmitCounted ..

-- ---------------------------------------------------------------------------
-- What is queued
-- ---------------------------------------------------------------------------

/-- The accesses that do not use the event queue. -/
def Offqueue : Access → Prop
  | .push _ | .pop | .drain => False
  | _ => True

theorem Offqueue.events_eq {a : Access} (h : Offqueue a) (socket : Socket) (e : Engine) :
    (a.perform socket e).2.events = e.events := by
  cases a with
  | push event => exact h.elim
  | pop => exact h.elim
  | drain => exact h.elim
  | upsert id address now =>
    rw [Access.perform]
    split <;> rfl
  | recordFailure id =>
    rw [Access.perform]
    split <;> rfl
  | _ => rfl

theorem Sending.offqueue {frame : List UInt8} {a : Access} (h : Sending frame a) : Offqueue a := by
  cases a with
  | push event => exact h
  | pop => exact h
  | drain => exact h
  | _ => trivial

theorem Routine.All.events_run {r : Routine α} (h : r.All Offqueue) (socket : Socket)
    (e : Engine) : (r.run socket e).2.events = e.events :=
  h.run_eq Engine.events (fun e _ ha => ha.events_eq socket e) e

theorem setup_drainEvents (e : Engine) : e.drainEvents.2.setup = e.setup := rfl

theorem represents_drainEvents {e : Engine} {waiting : List Event}
    (h : e.events.Represents waiting) : e.drainEvents.2.events.Represents [] :=
  h.drain.2

/-- With room in the queue, an event is delivered. -/
theorem run_deliver {e : Engine} {waiting : List Event} (h : e.events.Represents waiting)
    (hroom : waiting.length < e.events.capacity) (socket : Socket) (event : Event) :
    ((deliver event).run socket e).2.events.Represents (waiting ++ [event]) := by
  obtain ⟨haccepted, hqueued⟩ := h.push hroom event
  rw [deliver, run_bind]
  simp only [Routine.of, Routine.run, Access.perform, haccepted]
  exact hqueued

/-- A migration of another node that arrives is queued, if there is room. -/
theorem represents_handleDatagram {e : Engine} {datagram : List UInt8} {id : NodeId}
    {gene : Gene} {fitness : Binary64} {waiting : List Event}
    (hdecode : Frame.decode e.setup.hash datagram = .ok (.migrate id gene fitness))
    (hforeign : id ≠ e.setup.nodeId) (h : e.events.Represents waiting)
    (hroom : waiting.length < e.events.capacity) (socket : Socket) (origin : Address)
    (now : Nat) :
    (e.handleDatagram socket datagram origin now).events.Represents
      (waiting ++ [.formula id origin (.withFitness gene fitness)]) := by
  have hsender : (Message.migrate id gene fitness).sender? ≠ some e.setup.nodeId :=
    fun heq => hforeign (Option.some.inj heq)
  have hobserve : (observe id origin now).All Offqueue :=
    (all_observe id origin now).mono fun _ ha => ha ▸ trivial
  have hevents : ((observe id origin now).run socket
      { e with stats := e.stats.add 1 .datagramsReceived }).2.events = e.events :=
    hobserve.events_run socket _
  rw [handleDatagram, handle_of_decode hdecode hsender]
  simp only [Routine.run, Access.perform, react, run_bind]
  rw [Routine.All.events_run ((all_transmitCounted ..).mono fun _ => Sending.offqueue)]
  refine run_deliver ?_ ?_ socket _
  · rw [hevents]
    exact h
  · rw [hevents]
    exact hroom

end AffineSwarm.Engine
