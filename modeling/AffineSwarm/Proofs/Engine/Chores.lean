import AffineSwarm.Proofs.Engine.Accesses
import AffineSwarm.Proofs.Engine.Datagram

/-!
# The chores of the network loop

What the network loop does to the neighbor table is a matter of what it has in hand: a
datagram of another node makes it record the sender or refresh an address, and a pass of
housekeeping makes it evict the stale neighbors and count them. `Chore.after` is what an access
does to a chore, and `Routine.Leads` says of a routine that it does its chore and no other,
whatever its accesses give.

The application records the static neighbors that it is called with, and leaves the entries
alone otherwise (`aside_begun`).

## Results

* `leads_handle` — handling a datagram does the chore that the datagram makes.
* `leads_upkeep` — housekeeping evicts once, and counts what it evicted.
* `begun_addStaticNeighbor` — to add a static neighbor is to record it first.
-/

namespace AffineSwarm.Engine

open Routine (all_pure all_of)

-- ---------------------------------------------------------------------------
-- Chores
-- ---------------------------------------------------------------------------

/-- What the network loop has to do to the table. -/
inductive Chore where
  | upsert (id : NodeId) (address : Address) (now : Nat)
  | touch (address : Address) (now : Nat)
  | evict (now staleAfter : Nat)
  /-- Count the neighbors that were evicted. -/
  | tally (count : Nat)
  deriving DecidableEq

/-- The chore that is left after an access, if any. An access that is a chore must be the one
that is due, and what was evicted is to be counted. -/
def Chore.after (due : Option Chore) : (a : Access) → a.Answer → Option (Option Chore)
  | .upsert id address now, _ => if due = some (.upsert id address now) then some none else none
  | .touch address now, _ => if due = some (.touch address now) then some none else none
  | .evict now staleAfter, evicted =>
    if due = some (.evict now staleAfter) then some (some (.tally evicted.length)) else none
  | .count .neighborsEvicted n, _ => if due = some (.tally n) then some none else none
  | _, _ => some due

/-- The chore that a datagram makes: to record another node that greets or migrates, or to
refresh the address of an acknowledgement. -/
def creditChore? (s : Setup) (datagram : List UInt8) (origin : Address) (now : Nat) :
    Option Chore :=
  match Frame.decode s.hash datagram with
  | .ok (.hello id) => if id = s.nodeId then none else some (.upsert id origin now)
  | .ok (.migrate id _ _) => if id = s.nodeId then none else some (.upsert id origin now)
  | .ok (.ack _) => some (.touch origin now)
  | .error _ => none

/-- The accesses that are no chore. -/
def Aside : Access → Prop
  | .upsert _ _ _ | .touch _ _ | .evict _ _ | .count .neighborsEvicted _ => False
  | _ => True

theorem Aside.after {a : Access} (h : Aside a) (due : Option Chore) (answer : a.Answer) :
    Chore.after due a answer = some due := by
  cases a with
  | upsert id address now => exact h.elim
  | touch address now => exact h.elim
  | evict now staleAfter => exact h.elim
  | count counter n =>
    cases counter with
    | neighborsEvicted => exact h.elim
    | _ => rfl
  | _ => rfl

/-- What an access may be to a chore: none, or the one that is due. -/
theorem Chore.after_cases {due due' : Option Chore} {a : Access} {answer : a.Answer}
    (h : Chore.after due a answer = some due') :
    (Aside a ∧ due' = due) ∨
    (∃ id address now, a = .upsert id address now ∧ due = some (.upsert id address now) ∧
      due' = none) ∨
    (∃ address now, a = .touch address now ∧ due = some (.touch address now) ∧ due' = none) ∨
    (∃ now staleAfter count, a = .evict now staleAfter ∧ due = some (.evict now staleAfter) ∧
      due' = some (.tally count)) ∨
    ∃ count, a = .count .neighborsEvicted count ∧ due = some (.tally count) ∧ due' = none := by
  cases a with
  | upsert id address now =>
    obtain ⟨hdue, hafter⟩ := Option.ite_none_right_eq_some.mp h
    exact .inr (.inl ⟨id, address, now, rfl, hdue, (Option.some.inj hafter).symm⟩)
  | touch address now =>
    obtain ⟨hdue, hafter⟩ := Option.ite_none_right_eq_some.mp h
    exact .inr (.inr (.inl ⟨address, now, rfl, hdue, (Option.some.inj hafter).symm⟩))
  | evict now staleAfter =>
    obtain ⟨hdue, hafter⟩ := Option.ite_none_right_eq_some.mp h
    exact .inr (.inr (.inr (.inl ⟨now, staleAfter, _, rfl, hdue, (Option.some.inj hafter).symm⟩)))
  | count counter count =>
    cases counter with
    | neighborsEvicted =>
      obtain ⟨hdue, hafter⟩ := Option.ite_none_right_eq_some.mp h
      exact .inr (.inr (.inr (.inr ⟨count, rfl, hdue, (Option.some.inj hafter).symm⟩)))
    | _ => exact .inl ⟨trivial, (Option.some.inj h).symm⟩
  | _ => exact .inl ⟨trivial, (Option.some.inj h).symm⟩

namespace Routine

variable {α β : Type} {due mid left : Option Chore}

/-- A routine does the chores that are due up to those that are left, whatever its accesses
give. -/
def Leads (left : Option Chore) : Option Chore → Routine α → Prop
  | due, .done _ => due = left
  | due, .access a next =>
    ∀ answer, ∃ due', Chore.after due a answer = some due' ∧ (next answer).Leads left due'

theorem Leads.bind {r : Routine α} {rest : α → Routine β} (h : r.Leads mid due)
    (hrest : ∀ result, (rest result).Leads left mid) : (r >>= rest).Leads left due := by
  induction r generalizing due with
  | done result => exact h ▸ hrest result
  | access a next ih =>
    intro answer
    obtain ⟨due', hafter, hnext⟩ := h answer
    exact ⟨due', hafter, ih answer hnext⟩

/-- Accesses that are no chore leave what is due. -/
theorem All.leads {r : Routine α} (h : r.All Aside) : r.Leads due due := by
  induction r with
  | done result => rfl
  | access a next ih => exact fun answer => ⟨due, h.1.after due answer, ih answer (h.2 answer)⟩

end Routine

-- ---------------------------------------------------------------------------
-- Sending
-- ---------------------------------------------------------------------------

theorem aside_blame (peer : Option NodeId) : (blame peer).All Aside := by
  refine .bind (all_of trivial) fun _ => ?_
  cases peer with
  | none => exact all_pure _
  | some id => exact all_of trivial

theorem aside_transmit (frame : List UInt8) (target : Address) (peer : Option NodeId) :
    (transmit frame target peer).All Aside := by
  refine .bind (all_of trivial) fun succeeded => ?_
  cases succeeded with
  | true => exact all_pure _
  | false => exact .bind (aside_blame peer) fun _ => all_pure _

theorem aside_transmitAll (frame : List UInt8) (targets : List (Address × Option NodeId)) :
    (transmitAll frame targets).All Aside := by
  induction targets with
  | nil => exact all_pure _
  | cons target rest ih =>
    exact .bind (aside_transmit frame target.1 target.2) fun _ => .bind ih fun _ => all_pure _

theorem aside_transmitCounted {counter : Counter} (hcounter : Aside (.count counter 1))
    (frame : List UInt8) (target : Address) (id : NodeId) :
    (transmitCounted counter frame target id).All Aside := by
  refine .bind (aside_transmit frame target (some id)) fun succeeded => ?_
  cases succeeded with
  | true => exact all_of hcounter
  | false => exact all_pure _

theorem aside_announce (s : Setup) : (announce s).All Aside := by
  refine .bind (aside_transmitAll _ _) fun _ => .bind (all_of trivial) fun _ => ?_
  exact .bind (aside_transmitAll _ _) fun _ => .bind (all_of trivial) fun _ => all_pure _

-- ---------------------------------------------------------------------------
-- Calls
-- ---------------------------------------------------------------------------

/-- What a call does to the table is to record the static neighbor that it is about. -/
def Call.Records (c : Call) (a : Access) : Prop :=
  (∃ id address now, c = .addStaticNeighbor address id now ∧ a = .upsert id address now) ∨
    Aside a

theorem aside_routine (s : Setup) (c : Call) : (c.routine s).All c.Records := by
  have haside : ∀ {α : Type} {r : Routine α}, r.All Aside → r.All c.Records :=
    fun h => h.mono fun _ => .inr
  cases c with
  | sendHello => exact .bind (haside (aside_announce s)) fun _ => all_pure _
  | addStaticNeighbor address id now =>
    refine .bind ?_ fun _ => all_pure _
    rw [introduce]
    split
    · exact all_pure _
    · refine .bind (all_of (.inl ⟨id, address, now, rfl, rfl⟩)) fun outcome => ?_
      cases outcome with
      | error _ => exact all_pure _
      | ok _ => exact .bind (haside (aside_transmitCounted (by trivial) ..)) fun _ => all_pure _
  | sendToRandom rand formula =>
    refine .bind (.bind (all_of (.inr trivial)) fun neighbor => ?_) fun _ => all_pure _
    cases neighbor with
    | none => exact all_pure _
    | some n => exact .bind (haside (aside_transmitCounted (by trivial) ..)) fun _ => all_pure _
  | sendToAll formula =>
    refine .bind (haside (.bind (all_of trivial) fun _ => ?_)) fun _ => all_pure _
    refine .bind (aside_transmitAll _ _) fun _ => .bind (aside_transmitAll _ _) fun _ => ?_
    exact .bind (all_of trivial) fun _ => all_pure _
  | nextEvent => exact .bind (all_of (.inr trivial)) fun _ => all_pure _
  | drainEvents => exact .bind (all_of (.inr trivial)) fun _ => all_pure _
  | stop => exact all_of (.inr trivial)

theorem aside_begun (e : Engine) (c : Call) : (c.begun e).All c.Records := by
  rw [Call.begun]
  split
  · trivial
  · exact aside_routine e.setup c

/-- A call to add a static neighbor that is not refused records it before anything else, and
only once. -/
theorem begun_addStaticNeighbor {e : Engine} {id : NodeId} (hrunning : e.running = true)
    (hforeign : id ≠ e.setup.nodeId) (address : Address) (now : Nat) :
    ∃ next, (Call.addStaticNeighbor address id now).begun e =
        .access (.upsert id address now) next ∧
      ∀ outcome, (next outcome).All Aside := by
  rw [Call.begun, hrunning, Call.routine, introduce, if_neg hforeign]
  refine ⟨_, rfl, fun outcome => ?_⟩
  refine .bind (.bind (all_pure outcome) fun outcome => ?_) fun _ => all_pure _
  cases outcome with
  | error _ => exact all_pure _
  | ok _ => exact .bind (aside_transmitCounted (by trivial) ..) fun _ => all_pure _

-- ---------------------------------------------------------------------------
-- The network loop
-- ---------------------------------------------------------------------------

theorem leads_observe (id : NodeId) (address : Address) (now : Nat) :
    (observe id address now).Leads none (some (.upsert id address now)) := by
  intro outcome
  refine ⟨none, if_pos rfl, ?_⟩
  match outcome with
  | .ok .inserted => rfl
  | .ok .refreshed => rfl
  | .error _ => rfl

theorem aside_deliver (event : Event) : (deliver event).All Aside :=
  (all_deliver event).mono fun _ h => h.elim (· ▸ trivial) (· ▸ trivial)

/-- A message is reacted to with the chore that it makes, first or, for an
acknowledgement, last. -/
theorem leads_react (s : Setup) (origin : Address) (now : Nat) (m : Message) :
    (react s origin now m).Leads none (match m with
      | .hello id => some (.upsert id origin now)
      | .migrate id _ _ => some (.upsert id origin now)
      | .ack _ => some (.touch origin now)) := by
  cases m with
  | hello id =>
    refine (leads_observe id origin now).bind fun isNew => ?_
    have hdeliver : (deliver (.hello id origin) >>= fun _ => pure ()).All Aside :=
      .bind (aside_deliver _) fun _ => all_pure _
    cases isNew with
    | true =>
      refine Routine.All.leads (.bind ?_ fun _ => hdeliver)
      exact aside_transmitCounted (by trivial) ..
    | false => exact hdeliver.leads
  | migrate id gene fitness =>
    refine (leads_observe id origin now).bind fun _ => ?_
    refine Routine.All.leads (.bind (aside_deliver _) fun _ => ?_)
    exact aside_transmitCounted (by trivial) ..
  | ack status =>
    intro _
    refine ⟨_, rfl, fun _ => ⟨none, if_pos rfl, rfl⟩⟩

/-- Handling a datagram does the chore that the datagram makes, and no other. -/
theorem leads_handle (s : Setup) (datagram : List UInt8) (origin : Address) (now : Nat) :
    (handle s datagram origin now).Leads none (creditChore? s datagram origin now) := by
  have hreceived : (Routine.of (.count .datagramsReceived 1)).All Aside := all_of trivial
  have hdropped : (Routine.of (.count .datagramsDropped 1)).All Aside := all_of trivial
  refine hreceived.leads.bind fun _ => ?_
  rw [creditChore?]
  cases hdecode : Frame.decode s.hash (datagram.take receiveLimit) with
  | error _ =>
    cases hwhole : Frame.decode s.hash datagram with
    | error _ => exact hdropped.leads
    | ok m =>
      rw [Frame.decode_take_receiveLimit.mpr hwhole] at hdecode
      cases hdecode
  | ok m =>
    rw [Frame.decode_take_receiveLimit.mp hdecode]
    have hreact := leads_react s origin now m
    cases m with
    | hello id =>
      by_cases hown : id = s.nodeId
      · simp only [Message.sender?, hown, if_true]
        rfl
      · simp only [Message.sender?, Option.some.injEq, if_neg hown]
        exact hreact
    | migrate id gene fitness =>
      by_cases hown : id = s.nodeId
      · simp only [Message.sender?, hown, if_true]
        rfl
      · simp only [Message.sender?, Option.some.injEq, if_neg hown]
        exact hreact
    | ack status => exact hreact

/-- Housekeeping evicts the stale neighbors once, and counts those that it evicted. -/
theorem leads_evictStale (s : Setup) (now : Nat) :
    (evictStale s now).Leads none (some (.evict now s.staleAfter)) := by
  intro evicted
  exact ⟨_, if_pos rfl, fun _ => ⟨none, if_pos rfl, rfl⟩⟩

theorem leads_upkeep (s : Setup) (due : Bool) (now : Nat) :
    (upkeep s due now).Leads none (some (.evict now s.staleAfter)) := by
  cases due with
  | true => exact (aside_announce s).leads.bind fun _ => leads_evictStale s now
  | false => exact leads_evictStale s now

end AffineSwarm.Engine
