import AffineSwarm.Engine.Threads

/-!
# The accesses of each routine

`Routine.All allowed r` says that whatever the accesses of `r` give, every access that it
makes is allowed. Each routine of the engine has one lemma here that names the accesses
that it may make; what a call may do is `Call.Allows`, what the network loop may do with
a message of another node is `Reacts`.
-/

namespace AffineSwarm.Engine

-- ---------------------------------------------------------------------------
-- Every access of a routine
-- ---------------------------------------------------------------------------

namespace Routine

variable {α β : Type} {allowed : Access → Prop}

/-- Every access that a routine may make is allowed. -/
def All (allowed : Access → Prop) : Routine α → Prop
  | .done _ => True
  | .access a next => allowed a ∧ ∀ answer, (next answer).All allowed

theorem all_pure (result : α) : (pure result : Routine α).All allowed := trivial

theorem all_of {a : Access} (h : allowed a) : (of a).All allowed := ⟨h, fun _ => trivial⟩

theorem All.bind {r : Routine α} {rest : α → Routine β} (h : r.All allowed)
    (hrest : ∀ result, (rest result).All allowed) : (r >>= rest).All allowed := by
  induction r with
  | done result => exact hrest result
  | access a next ih => exact ⟨h.1, fun answer => ih answer (h.2 answer)⟩

theorem All.mono {weaker : Access → Prop} {r : Routine α} (h : r.All allowed)
    (himp : ∀ a, allowed a → weaker a) : r.All weaker := by
  induction r with
  | done result => trivial
  | access a next ih => exact ⟨himp a h.1, fun answer => ih answer (h.2 answer)⟩

end Routine

open Routine (all_pure all_of)

-- ---------------------------------------------------------------------------
-- Sending
-- ---------------------------------------------------------------------------

/-- The accesses that go with sending one frame: to the socket, to the table for whom to
send it to and for whom to blame, and to the counters. -/
def Sending (frame : List UInt8) : Access → Prop
  | .send f _ => f = frame
  | .recordFailure _ | .snapshot | .pick _ | .count _ _ => True
  | _ => False

theorem all_blame (frame : List UInt8) (peer : Option NodeId) :
    (blame peer).All (Sending frame) := by
  refine .bind (all_of trivial) fun _ => ?_
  cases peer with
  | none => exact all_pure _
  | some id => exact all_of trivial

theorem all_transmit (frame : List UInt8) (target : Address) (peer : Option NodeId) :
    (transmit frame target peer).All (Sending frame) := by
  refine .bind (all_of rfl) fun succeeded => ?_
  cases succeeded with
  | true => exact all_pure _
  | false => exact .bind (all_blame frame peer) fun _ => all_pure _

theorem all_transmitAll (frame : List UInt8) (targets : List (Address × Option NodeId)) :
    (transmitAll frame targets).All (Sending frame) := by
  induction targets with
  | nil => exact all_pure _
  | cons target rest ih =>
    obtain ⟨address, peer⟩ := target
    exact .bind (all_transmit frame address peer) fun _ => .bind ih fun _ => all_pure _

theorem all_transmitCounted (counter : Counter) (frame : List UInt8) (target : Address)
    (id : NodeId) : (transmitCounted counter frame target id).All (Sending frame) := by
  refine .bind (all_transmit frame target (some id)) fun succeeded => ?_
  cases succeeded with
  | true => exact all_of trivial
  | false => exact all_pure _

theorem all_announce (s : Setup) : (announce s).All (Sending s.greeting) := by
  refine .bind (all_transmitAll _ _) fun _ => .bind (all_of trivial) fun _ => ?_
  exact .bind (all_transmitAll _ _) fun _ => .bind (all_of trivial) fun _ => all_pure _

-- ---------------------------------------------------------------------------
-- Calls
-- ---------------------------------------------------------------------------

/-- The accesses that a call may make. -/
def Call.Allows (s : Setup) : Call → Access → Prop
  | .sendHello, a => Sending s.greeting a
  | .addStaticNeighbor address id now, a =>
    (a = .upsert id address now ∧ id ≠ s.nodeId) ∨ Sending s.greeting a
  | .sendToRandom _ formula, a => Sending (s.migration formula) a
  | .sendToAll formula, a => Sending (s.migration formula) a
  | .nextEvent, a => a = .pop
  | .drainEvents, a => a = .drain
  | .stop, a => a = .halt

theorem all_introduce (s : Setup) (address : Address) (id : NodeId) (now : Nat) :
    (introduce s address id now).All ((Call.addStaticNeighbor address id now).Allows s) := by
  rw [introduce]
  by_cases hown : id = s.nodeId
  · rw [if_pos hown]
    exact all_pure _
  · rw [if_neg hown]
    refine .bind (all_of (.inl ⟨rfl, hown⟩)) fun outcome => ?_
    cases outcome with
    | error _ => exact all_pure _
    | ok _ =>
      refine .bind ?_ fun _ => all_pure _
      exact (all_transmitCounted _ _ _ _).mono fun _ => .inr

theorem all_share (s : Setup) (rand : UInt64) (formula : Formula) :
    (share s rand formula).All (Sending (s.migration formula)) := by
  refine .bind (all_of trivial) fun neighbor => ?_
  cases neighbor with
  | none => exact all_pure _
  | some n => exact .bind (all_transmitCounted _ _ _ _) fun _ => all_pure _

theorem all_shareWithAll (s : Setup) (formula : Formula) :
    (shareWithAll s formula).All (Sending (s.migration formula)) := by
  refine .bind (all_of trivial) fun _ => .bind (all_transmitAll _ _) fun _ => ?_
  exact .bind (all_transmitAll _ _) fun _ => .bind (all_of trivial) fun _ => all_pure _

theorem all_routine (s : Setup) (c : Call) : (c.routine s).All (c.Allows s) := by
  cases c with
  | sendHello => exact .bind (all_announce s) fun _ => all_pure _
  | addStaticNeighbor address id now =>
    exact .bind (all_introduce s address id now) fun _ => all_pure _
  | sendToRandom rand formula => exact .bind (all_share s rand formula) fun _ => all_pure _
  | sendToAll formula => exact .bind (all_shareWithAll s formula) fun _ => all_pure _
  | nextEvent => exact .bind (all_of rfl) fun _ => all_pure _
  | drainEvents => exact .bind (all_of rfl) fun _ => all_pure _
  | stop => exact all_of rfl

theorem all_begun (e : Engine) (c : Call) : (c.begun e).All (c.Allows e.setup) := by
  rw [Call.begun]
  split
  · trivial
  · exact all_routine e.setup c

-- ---------------------------------------------------------------------------
-- The network loop
-- ---------------------------------------------------------------------------

/-- The accesses of housekeeping. -/
def Upkeeps (s : Setup) (a : Access) : Prop :=
  Sending s.greeting a ∨ ∃ now, a = .evict now s.staleAfter

theorem all_upkeep (s : Setup) (due : Bool) (now : Nat) :
    (upkeep s due now).All (Upkeeps s) := by
  have hevict : (evictStale s now).All (Upkeeps s) :=
    .bind (all_of (.inr ⟨now, rfl⟩)) fun _ => all_of (.inl trivial)
  cases due with
  | true => exact .bind ((all_announce s).mono fun _ => .inl) fun _ => hevict
  | false => exact hevict

/-- The accesses of the network loop for a message from an address. -/
def Reacts (s : Setup) (origin : Address) (now : Nat) : Message → Access → Prop
  | .hello id, a =>
    a = .upsert id origin now ∨ a = .push (.hello id origin) ∨ Sending s.greeting a
  | .migrate id gene fitness, a =>
    a = .upsert id origin now ∨ a = .push (.formula id origin (.withFitness gene fitness)) ∨
      ∃ accepted, Sending (s.encode (.ack (ackStatus accepted))) a
  | .ack _, a => a = .touch origin now ∨ a = .count .acksReceived 1

theorem all_observe (id : NodeId) (address : Address) (now : Nat) :
    (observe id address now).All (· = .upsert id address now) := by
  refine .bind (all_of rfl) fun outcome => ?_
  match outcome with
  | .ok .inserted => exact all_pure _
  | .ok .refreshed => exact all_pure _
  | .error _ => exact all_pure _

theorem all_deliver (event : Event) :
    (deliver event).All fun a => a = .push event ∨ a = .count .eventsRejected 1 := by
  refine .bind (all_of (.inl rfl)) fun accepted => ?_
  cases accepted with
  | true => exact all_pure _
  | false => exact .bind (all_of (.inr rfl)) fun _ => all_pure _

theorem all_react (s : Setup) (origin : Address) (now : Nat) (m : Message) :
    (react s origin now m).All (Reacts s origin now m) := by
  cases m with
  | hello id =>
    have hdeliver : (deliver (.hello id origin)).All (Reacts s origin now (.hello id)) :=
      (all_deliver _).mono fun a ha =>
        ha.elim (fun h => .inr (.inl h)) fun h => .inr (.inr (h ▸ trivial))
    refine .bind ((all_observe id origin now).mono fun _ => .inl) fun isNew => ?_
    cases isNew with
    | true =>
      refine .bind ?_ fun _ => .bind hdeliver fun _ => all_pure _
      exact (all_transmitCounted _ _ _ _).mono fun _ h => .inr (.inr h)
    | false => exact .bind hdeliver fun _ => all_pure _
  | migrate id gene fitness =>
    refine .bind ((all_observe id origin now).mono fun _ => .inl) fun _ => ?_
    refine .bind ?_ fun accepted => ?_
    · exact (all_deliver _).mono fun a ha =>
        ha.elim (fun h => .inr (.inl h)) fun h => .inr (.inr ⟨true, h ▸ trivial⟩)
    · exact (all_transmitCounted _ _ _ _).mono fun _ h => .inr (.inr ⟨accepted, h⟩)
  | ack status => exact .bind (all_of (.inr rfl)) fun _ => all_of (.inl rfl)

/-- Handling a datagram is counting it and, if it is a message of another node, reacting
to that message. -/
theorem all_handle (s : Setup) (datagram : List UInt8) (origin : Address) (now : Nat) :
    (handle s datagram origin now).All fun a => (∃ counter, a = .count counter 1) ∨
      ∃ m, Frame.decode s.hash (datagram.take receiveLimit) = .ok m ∧
        m.sender? ≠ some s.nodeId ∧ Reacts s origin now m a := by
  refine .bind (all_of (.inl ⟨_, rfl⟩)) fun _ => ?_
  cases hdecode : Frame.decode s.hash (datagram.take receiveLimit) with
  | error _ => exact all_of (.inl ⟨_, rfl⟩)
  | ok m =>
    by_cases hown : m.sender? = some s.nodeId
    · simp only [if_pos hown]
      exact all_pure _
    · simp only [if_neg hown]
      exact (all_react s origin now m).mono fun _ h => .inr ⟨m, rfl, hown, h⟩

-- ---------------------------------------------------------------------------
-- Neither sending nor recording
-- ---------------------------------------------------------------------------

/-- The accesses that neither hand a frame to the socket nor record a node. -/
def Neutral : Access → Prop
  | .send _ _ => False
  | .upsert _ _ _ => False
  | _ => True

theorem neutral_blame (peer : Option NodeId) : (blame peer).All Neutral := by
  refine .bind (all_of trivial) fun _ => ?_
  cases peer with
  | none => exact all_pure _
  | some id => exact all_of trivial

theorem neutral_deliver (event : Event) : (deliver event).All Neutral :=
  (all_deliver event).mono fun _ h => h.elim (· ▸ trivial) (· ▸ trivial)

theorem neutral_evictStale (s : Setup) (now : Nat) : (evictStale s now).All Neutral :=
  .bind (all_of trivial) fun _ => all_of trivial

end AffineSwarm.Engine
