import AffineSwarm.Engine.Basic

/-!
# Routines

An engine has two threads, the network loop and the application. They share the
neighbor table and the event queue, each behind a lock of its own, the counters, the
socket, and the flag that tells the network loop to end. A routine is a piece of work of
one thread, written as the accesses it makes to what is shared, in order. A single
access happens at once; between two accesses of one thread the other thread may make
any number of its own.

A routine that nobody interrupts is a function on engines (`Routine.run`).
-/

namespace AffineSwarm.Engine

open Neighbor.Table (Upsert)

-- ---------------------------------------------------------------------------
-- Accesses
-- ---------------------------------------------------------------------------

/-- One access to what the threads of an engine share. -/
inductive Access where
  /-- Hand one frame to the socket. -/
  | send (frame : List UInt8) (target : Address)
  /-- Record in the table that a node was heard from. -/
  | upsert (id : NodeId) (address : Address) (now : Nat)
  /-- Record in the table that somebody at an address was heard from. -/
  | touch (address : Address) (now : Nat)
  /-- Count a failed send against a node, if the table has it. -/
  | recordFailure (id : NodeId)
  /-- Remove the neighbors that have been silent for too long. -/
  | evict (now staleAfter : Nat)
  | snapshot
  | pick (rand : UInt64)
  | push (event : Event)
  | pop
  | drain
  | count (counter : Counter) (n : Nat)
  /-- Tell the network loop to end. -/
  | halt

namespace Access

/-- What the thread learns from an access. -/
@[reducible] def Answer : Access → Type
  | .send _ _ => Bool
  | .upsert _ _ _ => Except NeighborError Upsert
  | .evict _ _ => List Neighbor
  | .snapshot => List Neighbor
  | .pick _ => Option Neighbor
  | .push _ => Bool
  | .pop => Option Event
  | .drain => List Event
  | .touch _ _ | .recordFailure _ | .count _ _ | .halt => Unit

/-- What an access gives and what it leaves behind. -/
def perform (socket : Socket) (e : Engine) : (a : Access) → a.Answer × Engine
  | .send frame target =>
    (socket e.attempts target, e.noteAttempt ⟨target, frame, socket e.attempts target⟩)
  | .upsert id address now =>
    match e.neighbors.upsert id address now with
    | .ok (outcome, neighbors) => (.ok outcome, { e with neighbors })
    | .error error => (.error error, e)
  | .touch address now => ((), { e with neighbors := (e.neighbors.touch address now).2 })
  | .recordFailure id =>
    match e.neighbors.recordFailure id with
    | .ok (_, neighbors) => ((), { e with neighbors })
    | .error _ => ((), e)
  | .evict now staleAfter =>
    ((e.neighbors.evictStale now staleAfter).1,
      { e with neighbors := (e.neighbors.evictStale now staleAfter).2 })
  | .snapshot => (e.neighbors.entries, e)
  | .pick rand => (e.neighbors.pick? rand, e)
  | .push event => ((e.events.push event).1, { e with events := (e.events.push event).2 })
  | .pop => (e.events.pop.1, { e with events := e.events.pop.2 })
  | .drain => (e.events.drain.1, { e with events := e.events.drain.2 })
  | .count counter n => ((), { e with stats := e.stats.add n counter })
  | .halt => ((), { e with running := false })

end Access

-- ---------------------------------------------------------------------------
-- Routines
-- ---------------------------------------------------------------------------

/-- The work of a thread up to a result. What comes after an access depends on what the
access gave. -/
inductive Routine (α : Type) where
  | done (result : α)
  | access (a : Access) (next : a.Answer → Routine α)

namespace Routine

variable {α β : Type}

/-- The routine of a single access. -/
def of (a : Access) : Routine a.Answer := .access a .done

/-- One routine after the other. -/
def andThen : Routine α → (α → Routine β) → Routine β
  | .done result, rest => rest result
  | .access a next, rest => .access a fun answer => andThen (next answer) rest

instance : Monad Routine where
  pure := .done
  bind := andThen

/-- Do a routine without interruption. -/
def run (socket : Socket) : Routine α → Engine → α × Engine
  | .done result, e => (result, e)
  | .access a next, e => run socket (next (a.perform socket e).1) (a.perform socket e).2

end Routine

end AffineSwarm.Engine
