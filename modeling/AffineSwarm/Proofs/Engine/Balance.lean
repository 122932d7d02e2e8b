import AffineSwarm.Proofs.Engine.Replies
import Mathlib.Algebra.BigOperators.Group.List.Basic
import Mathlib.Tactic.Linarith
import Mathlib.Tactic.Ring

/-!
# Accounts

The counters of an engine are kept like books. An account holds what was done and is not yet
counted: an access that does something puts its weight on the account, and an access that
counts it takes the weight off again (`Account`). The laws of an account say which counter
goes with what is done; everything else follows from how the routines are made. Whatever its
accesses give, a routine leaves behind what its result says (`Routine.Weighs`): a
transmission leaves the price of a frame that left, a call and a pass of housekeeping leave
nothing (`Account.weighs_begun`, `Account.weighs_upkeep`), and a datagram leaves what is due
for its kind (`Account.weighs_handle`).
-/

namespace AffineSwarm.Engine

-- ---------------------------------------------------------------------------
-- Kinds of datagrams
-- ---------------------------------------------------------------------------

/-- What a datagram is to an engine. -/
inductive Kind where
  /-- No valid frame. -/
  | rejected
  /-- A valid frame that carries the identity of the engine itself. -/
  | own
  | greeting
  | migration
  | acknowledgement
  deriving DecidableEq, Repr

/-- The kind of a message of another node. -/
def Kind.ofMessage : Message → Kind
  | .hello _ => .greeting
  | .migrate _ _ _ => .migration
  | .ack _ => .acknowledgement

/-- What a datagram is counted as, besides as received. -/
def Kind.counter? : Kind → Option Counter
  | .rejected => some .datagramsDropped
  | .acknowledgement => some .acksReceived
  | .own | .greeting | .migration => none

def Setup.kind (s : Setup) (datagram : List UInt8) : Kind :=
  match Frame.decode s.hash datagram with
  | .error _ => .rejected
  | .ok m => if m.sender? = some s.nodeId then .own else .ofMessage m

/-- The first bytes of a datagram, which are all that is looked at, tell its kind. -/
theorem kind_take (s : Setup) (datagram : List UInt8) :
    s.kind (datagram.take receiveLimit) = s.kind datagram := by
  rw [Setup.kind, Setup.kind]
  cases hwhole : Frame.decode s.hash datagram with
  | ok m => rw [Frame.decode_take_receiveLimit.mpr hwhole]
  | error _ =>
    cases hfirst : Frame.decode s.hash (datagram.take receiveLimit) with
    | ok m =>
      rw [Frame.decode_take_receiveLimit.mp hfirst] at hwhole
      cases hwhole
    | error _ => rfl

-- ---------------------------------------------------------------------------
-- What the accesses of a routine weigh
-- ---------------------------------------------------------------------------

namespace Routine

variable {α β : Type} {weight : Performed → ℤ}

/-- Whatever its accesses give, the weights of all of them add up to a total, which may
depend on the result. -/
def Weighs (weight : Performed → ℤ) : Routine α → (α → ℤ) → Prop
  | .done result, total => total result = 0
  | .access a next, total =>
    ∀ answer, (next answer).Weighs weight fun result => total result - weight ⟨a, answer⟩

theorem weighs_pure {result : α} {total : α → ℤ} (h : total result = 0) :
    (pure result : Routine α).Weighs weight total := h

theorem weighs_of {a : Access} {total : a.Answer → ℤ}
    (h : ∀ answer, total answer = weight ⟨a, answer⟩) : (of a).Weighs weight total :=
  fun answer => sub_eq_zero_of_eq (h answer)

/-- One routine after the other: the second one weighs what the first one did not. -/
theorem Weighs.bind {r : Routine α} {rest : α → Routine β} {first : α → ℤ} {total : β → ℤ}
    (h : r.Weighs weight first)
    (hrest : ∀ x, (rest x).Weighs weight fun y => total y - first x) :
    (r >>= rest).Weighs weight total := by
  induction r generalizing first total with
  | done result =>
    have hnone : first result = 0 := h
    have hsecond := hrest result
    rw [hnone] at hsecond
    simp only [sub_zero] at hsecond
    exact hsecond
  | access a next ih =>
    intro answer
    refine ih answer (h answer) fun x => ?_
    have hsame : (fun y => total y - weight ⟨a, answer⟩ - (first x - weight ⟨a, answer⟩)) =
        fun y => total y - first x := by
      funext y
      omega
    rw [hsame]
    exact hrest x

/-- A routine whose accesses weigh nothing weighs nothing. -/
theorem All.weighs {r : Routine α}
    (h : r.All fun a => ∀ answer, weight ⟨a, answer⟩ = 0) : r.Weighs weight fun _ => 0 := by
  induction r with
  | done result => rfl
  | access a next ih =>
    intro answer
    simp only [h.1 answer, sub_zero]
    exact ih answer (h.2 answer)

end Routine

open Routine (Weighs weighs_pure weighs_of all_pure all_of)

-- ---------------------------------------------------------------------------
-- Accounts
-- ---------------------------------------------------------------------------

/-- The accesses that neither count anything nor do anything that is counted. -/
def Unbooked : Access → Prop
  | .send _ _ | .push _ | .evict _ _ | .count _ _ => False
  | _ => True

/-- An account of the engine with this setup: what each access puts on it or takes off it,
and what is left on it for a datagram that was handled. -/
structure Account (s : Setup) where
  weight : Performed → ℤ
  /-- What stands on the account for a frame that left, until it is counted. -/
  price : List UInt8 → ℤ
  due : Kind → ℤ
  sent : ∀ frame target, weight ⟨.send frame target, true⟩ = price frame
  failed : ∀ frame target,
    weight ⟨.send frame target, false⟩ + weight ⟨.count .sendFailures 1, ()⟩ = 0
  greetings : ∀ n : Nat, n * price s.greeting + weight ⟨.count .hellosSent n, ()⟩ = 0
  formulas : ∀ (n : Nat) f, n * price (s.migration f) + weight ⟨.count .formulasSent n, ()⟩ = 0
  acks : ∀ status, price (s.encode (.ack status)) + weight ⟨.count .acksSent 1, ()⟩ = 0
  accepted : ∀ event, weight ⟨.push event, true⟩ = 0
  refused : ∀ event, weight ⟨.push event, false⟩ + weight ⟨.count .eventsRejected 1, ()⟩ = 0
  evicted : ∀ now staleAfter gone, weight ⟨.evict now staleAfter, gone⟩ +
    weight ⟨.count .neighborsEvicted gone.length, ()⟩ = 0
  received : ∀ k : Kind, weight ⟨.count .datagramsReceived 1, ()⟩ +
    k.counter?.elim 0 (fun counter => weight ⟨.count counter 1, ()⟩) = due k
  unbooked : ∀ a, Unbooked a → ∀ answer, weight ⟨a, answer⟩ = 0

namespace Account

variable {s : Setup} (account : Account s)

-- ---------------------------------------------------------------------------
-- Sending
-- ---------------------------------------------------------------------------

theorem weighs_blame (peer : Option NodeId) :
    (blame peer).Weighs account.weight fun _ =>
      account.weight ⟨.count .sendFailures 1, ()⟩ := by
  refine .bind (weighs_of fun _ => rfl) fun _ => ?_
  cases peer with
  | none => exact weighs_pure (sub_self _)
  | some id =>
    refine weighs_of fun answer => ?_
    rw [account.unbooked (.recordFailure id) trivial answer]
    exact sub_self _

/-- A transmission leaves the price of the frame on the account if the frame left. -/
theorem weighs_transmit (frame : List UInt8) (target : Address) (peer : Option NodeId) :
    (transmit frame target peer).Weighs account.weight fun succeeded =>
      if succeeded then account.price frame else 0 := by
  refine .bind (weighs_of fun _ => rfl) fun succeeded => ?_
  cases succeeded with
  | true =>
    have hsent := account.sent frame target
    exact weighs_pure (by simp only [if_true, hsent, sub_self])
  | false =>
    have hfailed := account.failed frame target
    refine .bind (account.weighs_blame peer) fun _ => weighs_pure ?_
    simp only [Bool.false_eq_true, if_false]
    omega

theorem weighs_transmitAll (frame : List UInt8) (targets : List (Address × Option NodeId)) :
    (transmitAll frame targets).Weighs account.weight fun count =>
      count * account.price frame := by
  induction targets with
  | nil => exact weighs_pure (by simp)
  | cons first rest ih =>
    obtain ⟨target, peer⟩ := first
    refine .bind (account.weighs_transmit frame target peer) fun succeeded => ?_
    refine .bind ih fun count => weighs_pure ?_
    cases succeeded with
    | true =>
      simp only [if_true, Nat.cast_add, Nat.cast_one]
      ring
    | false => simp

/-- A transmission that is counted leaves nothing. -/
theorem weighs_transmitCounted {counter : Counter} {frame : List UInt8}
    (hcounter : account.price frame + account.weight ⟨.count counter 1, ()⟩ = 0)
    (target : Address) (id : NodeId) :
    (transmitCounted counter frame target id).Weighs account.weight fun _ => 0 := by
  refine .bind (account.weighs_transmit frame target (some id)) fun succeeded => ?_
  cases succeeded with
  | true =>
    refine weighs_of fun _ => ?_
    show 0 - account.price frame = account.weight ⟨.count counter 1, ()⟩
    omega
  | false => exact weighs_pure (by simp)

theorem greeting : account.price s.greeting + account.weight ⟨.count .hellosSent 1, ()⟩ = 0 := by
  simpa using account.greetings 1

theorem formula (f : Formula) :
    account.price (s.migration f) + account.weight ⟨.count .formulasSent 1, ()⟩ = 0 := by
  simpa using account.formulas 1 f

theorem weighs_announce : (announce s).Weighs account.weight fun _ => 0 := by
  refine .bind (account.weighs_transmitAll _ _) fun broadcast => ?_
  refine .bind (weighs_of fun neighbors => rfl) fun neighbors => ?_
  refine .bind (account.weighs_transmitAll _ _) fun sent => ?_
  refine .bind (weighs_of fun _ => rfl) fun _ => weighs_pure ?_
  have hsnapshot := account.unbooked .snapshot trivial neighbors
  have hcounted := account.greetings (broadcast + sent)
  push_cast at hcounted
  linarith

-- ---------------------------------------------------------------------------
-- Calls
-- ---------------------------------------------------------------------------

theorem weighs_introduce (address : Address) (id : NodeId) (now : Nat) :
    (introduce s address id now).Weighs account.weight fun _ => 0 := by
  rw [introduce]
  split
  · exact weighs_pure rfl
  · refine .bind (weighs_of fun outcome => rfl) fun outcome => ?_
    have hupsert := account.unbooked (.upsert id address now) trivial outcome
    rw [hupsert]
    cases outcome with
    | error error => exact weighs_pure (sub_self 0)
    | ok _ =>
      refine .bind (account.weighs_transmitCounted account.greeting address id) fun _ => ?_
      exact weighs_pure (by simp)

theorem weighs_share (rand : UInt64) (f : Formula) :
    (share s rand f).Weighs account.weight fun _ => 0 := by
  refine .bind (weighs_of fun neighbor => rfl) fun neighbor => ?_
  have hpick := account.unbooked (.pick rand) trivial neighbor
  rw [hpick]
  cases neighbor with
  | none => exact weighs_pure (sub_self 0)
  | some n =>
    refine .bind (account.weighs_transmitCounted (account.formula f) _ _) fun _ => ?_
    exact weighs_pure (by simp)

theorem weighs_shareWithAll (f : Formula) :
    (shareWithAll s f).Weighs account.weight fun _ => 0 := by
  refine .bind (weighs_of fun neighbors => rfl) fun neighbors => ?_
  refine .bind (account.weighs_transmitAll _ _) fun sent => ?_
  refine .bind (account.weighs_transmitAll _ _) fun broadcast => ?_
  refine .bind (weighs_of fun _ => rfl) fun _ => weighs_pure ?_
  have hsnapshot := account.unbooked .snapshot trivial neighbors
  have hcounted := account.formulas (sent + broadcast) f
  push_cast at hcounted
  linarith

/-- A call leaves nothing on the account. -/
theorem weighs_routine (c : Call) : (c.routine s).Weighs account.weight fun _ => 0 := by
  have hnothing : ∀ {α : Type} {r : Routine α}, r.Weighs account.weight (fun _ => 0) →
      (do let _ ← r : Routine Unit).Weighs account.weight fun _ => 0 :=
    fun h => h.bind fun _ => weighs_pure (sub_self 0)
  have hunbooked : ∀ a, Unbooked a → (Routine.of a).Weighs account.weight fun _ => 0 :=
    fun a ha => weighs_of fun answer => (account.unbooked a ha answer).symm
  cases c with
  | sendHello => exact hnothing account.weighs_announce
  | addStaticNeighbor address id now => exact hnothing (account.weighs_introduce address id now)
  | sendToRandom rand f => exact hnothing (account.weighs_share rand f)
  | sendToAll f => exact hnothing (account.weighs_shareWithAll f)
  | nextEvent => exact hnothing (hunbooked .pop trivial)
  | drainEvents => exact hnothing (hunbooked .drain trivial)
  | stop => exact hunbooked .halt trivial

theorem weighs_begun {e : Engine} (hsetup : e.setup = s) (c : Call) :
    (c.begun e).Weighs account.weight fun _ => 0 := by
  rw [Call.begun, hsetup]
  split
  · rfl
  · exact account.weighs_routine c

-- ---------------------------------------------------------------------------
-- The network loop
-- ---------------------------------------------------------------------------

theorem weighs_upkeep (due : Bool) (now : Nat) :
    (upkeep s due now).Weighs account.weight fun _ => 0 := by
  have hevict : (evictStale s now).Weighs account.weight fun _ => 0 := by
    refine .bind (weighs_of fun gone => rfl) fun gone => weighs_of fun _ => ?_
    have hevicted := account.evicted now s.staleAfter gone
    linarith
  cases due with
  | true => exact .bind account.weighs_announce fun _ => by simpa using hevict
  | false => exact hevict

theorem weighs_observe (id : NodeId) (address : Address) (now : Nat) :
    (observe id address now).Weighs account.weight fun _ => 0 := by
  refine Routine.All.weighs ((all_observe id address now).mono fun a ha => ?_)
  rw [ha]
  exact account.unbooked _ trivial

theorem weighs_deliver (event : Event) :
    (deliver event).Weighs account.weight fun _ => 0 := by
  refine .bind (weighs_of fun accepted => rfl) fun accepted => ?_
  cases accepted with
  | true => exact weighs_pure (by simp only [account.accepted, sub_self])
  | false =>
    refine .bind (weighs_of fun _ => rfl) fun _ => weighs_pure ?_
    have hrefused := account.refused event
    linarith

/-- A message of another node leaves nothing on the account unless it is an
acknowledgement. -/
theorem weighs_react (origin : Address) (now : Nat) (m : Message) :
    (react s origin now m).Weighs account.weight fun _ =>
      (Kind.ofMessage m).counter?.elim 0 fun counter => account.weight ⟨.count counter 1, ()⟩ := by
  cases m with
  | hello id =>
    have hdeliver : (do let _ ← deliver (.hello id origin) : Routine Unit).Weighs
        account.weight fun _ => 0 :=
      .bind (account.weighs_deliver _) fun _ => weighs_pure (sub_self 0)
    refine .bind (account.weighs_observe id origin now) fun isNew => ?_
    simp only [Kind.ofMessage, Kind.counter?, Option.elim_none, sub_zero]
    cases isNew with
    | true =>
      refine .bind (account.weighs_transmitCounted account.greeting origin id) fun _ => ?_
      simp only [sub_zero]
      exact hdeliver
    | false => exact hdeliver
  | migrate id gene fitness =>
    refine .bind (account.weighs_observe id origin now) fun _ => ?_
    refine .bind (account.weighs_deliver _) fun accepted => ?_
    simp only [Kind.ofMessage, Kind.counter?, Option.elim_none, sub_zero]
    exact account.weighs_transmitCounted (account.acks _) origin id
  | ack status =>
    refine .bind (weighs_of fun _ => rfl) fun _ => weighs_of fun answer => ?_
    rw [account.unbooked (.touch origin now) trivial answer]
    exact sub_self _

/-- Handling a datagram leaves on the account what is due for it. -/
theorem weighs_handle (datagram : List UInt8) (origin : Address) (now : Nat) :
    (handle s datagram origin now).Weighs account.weight
      fun _ => account.due (s.kind datagram) := by
  have hreceived := account.received (s.kind datagram)
  rw [← kind_take, Setup.kind] at hreceived ⊢
  refine .bind (weighs_of fun _ => rfl) fun _ => ?_
  rw [← hreceived]
  simp only [add_sub_cancel_left]
  cases hdecode : Frame.decode s.hash (datagram.take receiveLimit) with
  | error _ => exact weighs_of fun _ => rfl
  | ok m =>
    by_cases hown : m.sender? = some s.nodeId
    · simp only [if_pos hown]
      exact weighs_pure rfl
    · simp only [if_neg hown]
      exact account.weighs_react origin now m

end Account

end AffineSwarm.Engine
