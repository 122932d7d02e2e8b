import AffineSwarm.Proofs.Engine.Accesses
import AffineSwarm.Proofs.Engine.Datagram

/-!
# The duties of the network loop

The network loop has at any time at most one duty: to bring an event to the queue, or to
acknowledge one that it brought. `Duty.after` is what an access does to a duty, and
`Routine.Keeps` says of a routine that it does its duty whatever its accesses give.

The routine that handles a datagram discharges the duty of that datagram
(`handle_discharges`). No other routine notices duties (`Upkeeps.unnoticed`,
`Call.Allows.unnoticed`).
-/

namespace AffineSwarm.Engine

open Routine (all_pure all_of)

-- ---------------------------------------------------------------------------
-- Duties
-- ---------------------------------------------------------------------------

/-- What the network loop still has to do for a datagram. -/
inductive Duty where
  | idle
  | push (event : Event)
  | acknowledge (origin : Address) (status : UInt8)
  deriving DecidableEq

/-- The acknowledgement that an event calls for once it was accepted or refused. Only
formulas are acknowledged, to where they came from. -/
def acknowledgement : Event × Bool → Option (Address × UInt8)
  | (.formula _ origin _, true) => some (origin, 0)
  | (.formula _ origin _, false) => some (origin, 1)
  | (.hello _ _, _) => none

namespace Duty

/-- The duty that a datagram makes. -/
def ofEvent? : Option Event → Duty
  | none => .idle
  | some event => .push event

/-- The duty that is left of an event once it was accepted or refused. -/
def ofAcknowledgement? : Option (Address × UInt8) → Duty
  | none => .idle
  | some (origin, status) => .acknowledge origin status

/-- The event that is still to be brought to the queue. -/
def event? : Duty → Option Event
  | .push event => some event
  | _ => none

/-- The acknowledgement that is still to be sent. -/
def acknowledgement? : Duty → Option (Address × UInt8)
  | .acknowledge origin status => some (origin, status)
  | _ => none

/-- The duty after an access. There is none if the access brings another event to the
queue than the one that is due, or sends another acknowledgement. -/
def after (hash : KeyedHash) (d : Duty) : (a : Access) → a.Answer → Option Duty
  | .push event, accepted =>
    if d = .push event then some (ofAcknowledgement? (acknowledgement (event, accepted)))
    else none
  | .send frame target, _ =>
    match ackStatus? hash frame with
    | none => some d
    | some status => if d = .acknowledge target status then some .idle else none
  | _, _ => some d

end Duty

/-- The accesses that neither bring an event to the queue nor send an acknowledgement. -/
def Unnoticed (hash : KeyedHash) : Access → Prop
  | .push _ => False
  | .send frame _ => ackStatus? hash frame = none
  | _ => True

theorem Unnoticed.after {hash : KeyedHash} {a : Access} (h : Unnoticed hash a) (d : Duty)
    (answer : a.Answer) : d.after hash a answer = some d := by
  cases a with
  | push event => exact h.elim
  | send frame target =>
    rw [Duty.after]
    rw [Unnoticed] at h
    rw [h]
  | _ => rfl

theorem Sending.unnoticed {hash : KeyedHash} {frame : List UInt8} {a : Access}
    (h : Sending frame a) (hframe : ackStatus? hash frame = none) : Unnoticed hash a := by
  cases a with
  | send f target =>
    cases h
    exact hframe
  | push event => exact h.elim
  | _ => trivial

/-- No call makes or takes a duty. -/
theorem Call.Allows.unnoticed {s : Setup} {c : Call} {a : Access} (h : c.Allows s a) :
    Unnoticed s.hash a := by
  cases c with
  | sendHello => exact Sending.unnoticed h (ackStatus?_greeting s)
  | addStaticNeighbor address id now =>
    rcases h with ⟨rfl, -⟩ | h
    · trivial
    · exact h.unnoticed (ackStatus?_greeting s)
  | sendToRandom rand formula => exact Sending.unnoticed h (ackStatus?_migration s formula)
  | sendToAll formula => exact Sending.unnoticed h (ackStatus?_migration s formula)
  | nextEvent => exact h ▸ trivial
  | drainEvents => exact h ▸ trivial
  | stop => exact h ▸ trivial

theorem Upkeeps.unnoticed {s : Setup} {a : Access} (h : Upkeeps s a) : Unnoticed s.hash a := by
  rcases h with h | ⟨now, rfl⟩
  · exact h.unnoticed (ackStatus?_greeting s)
  · trivial

-- ---------------------------------------------------------------------------
-- Routines that discharge a duty
-- ---------------------------------------------------------------------------

namespace Routine

variable {α β : Type} {hash : KeyedHash}

/-- A routine that begins with a duty and keeps to it, whatever its accesses give. At its
end `post` holds of its result and of the duty that is left. -/
def Keeps (hash : KeyedHash) (post : α → Duty → Prop) : Duty → Routine α → Prop
  | d, .done result => post result d
  | d, .access a next =>
    ∀ answer, ∃ d', d.after hash a answer = some d' ∧ (next answer).Keeps hash post d'

theorem keeps_pure {post : α → Duty → Prop} {d : Duty} {result : α} (h : post result d) :
    (pure result : Routine α).Keeps hash post d := h

theorem Keeps.bind {mid : α → Duty → Prop} {post : β → Duty → Prop} {d : Duty} {r : Routine α}
    {rest : α → Routine β} (h : r.Keeps hash mid d)
    (hrest : ∀ result d', mid result d' → (rest result).Keeps hash post d') :
    (r >>= rest).Keeps hash post d := by
  induction r generalizing d with
  | done result => exact hrest result d h
  | access a next ih =>
    intro answer
    obtain ⟨d', hafter, hnext⟩ := h answer
    exact ⟨d', hafter, ih answer hnext⟩

/-- Accesses that are not noticed leave the duty as it is. -/
theorem All.keeps {d : Duty} {r : Routine α} (h : r.All (Unnoticed hash)) :
    r.Keeps hash (fun _ d' => d' = d) d := by
  induction r with
  | done result => rfl
  | access a next ih => exact fun answer => ⟨d, h.1.after d answer, ih answer (h.2 answer)⟩

/-- A routine whose accesses are not noticed leaves the duty to what follows it. -/
theorem All.bind_keeps {post : β → Duty → Prop} {d : Duty} {r : Routine α}
    {rest : α → Routine β} (h : r.All (Unnoticed hash))
    (hrest : ∀ result, (rest result).Keeps hash post d) : (r >>= rest).Keeps hash post d :=
  h.keeps.bind fun result _ hd => hd ▸ hrest result

end Routine

open Routine (Keeps keeps_pure)

/-- The event is brought to the queue; what is left is to acknowledge it. -/
theorem deliver_keeps (hash : KeyedHash) (event : Event) :
    (deliver event).Keeps hash
      (fun accepted d => d = .ofAcknowledgement? (acknowledgement (event, accepted)))
      (.push event) := by
  intro accepted
  refine ⟨.ofAcknowledgement? (acknowledgement (event, accepted)), if_pos rfl, ?_⟩
  cases accepted with
  | true => exact keeps_pure rfl
  | false =>
    have hcount : (Routine.of (.count .eventsRejected 1)).All (Unnoticed hash) := all_of trivial
    exact hcount.bind_keeps fun _ => keeps_pure rfl

/-- The acknowledgement is sent, or fails to be, and nothing is left to do. -/
theorem transmitCounted_keeps (s : Setup) (origin : Address) (id : NodeId) (status : UInt8) :
    (transmitCounted .acksSent (s.encode (.ack status)) origin id).Keeps s.hash
      (fun _ d => d = .idle) (.acknowledge origin status) := by
  have hsend : (transmit (s.encode (.ack status)) origin (some id)).Keeps s.hash
      (fun _ d => d = .idle) (.acknowledge origin status) := by
    intro succeeded
    refine ⟨.idle, ?_, ?_⟩
    · rw [Duty.after, Setup.encode, ackStatus?_ack]
      exact if_pos rfl
    · cases succeeded with
      | true => exact keeps_pure rfl
      | false =>
        have hblame : (blame (some id)).All (Unnoticed s.hash) :=
          (all_blame s.greeting (some id)).mono fun _ h => h.unnoticed (ackStatus?_greeting s)
        exact hblame.bind_keeps fun _ => keeps_pure rfl
  refine hsend.bind fun succeeded d hd => ?_
  cases hd
  cases succeeded with
  | true => exact Routine.All.keeps (all_of trivial)
  | false => exact keeps_pure rfl

theorem observe_unnoticed (hash : KeyedHash) (id : NodeId) (address : Address) (now : Nat) :
    (observe id address now).All (Unnoticed hash) :=
  (all_observe id address now).mono fun _ h => h ▸ trivial

theorem react_hello_keeps (s : Setup) (origin : Address) (now : Nat) (id : NodeId) :
    (react s origin now (.hello id)).Keeps s.hash (fun _ d => d = .idle)
      (.push (.hello id origin)) := by
  have hdeliver : (deliver (.hello id origin) >>= fun _ => pure ()).Keeps s.hash
      (fun _ d => d = .idle) (.push (.hello id origin)) :=
    (deliver_keeps _ _).bind fun _ _ hd => keeps_pure hd
  refine (observe_unnoticed ..).bind_keeps fun isNew => ?_
  cases isNew with
  | true =>
    have hgreet : (transmitCounted .hellosSent s.greeting origin id).All (Unnoticed s.hash) :=
      (all_transmitCounted ..).mono fun _ h => h.unnoticed (ackStatus?_greeting s)
    exact hgreet.bind_keeps fun _ => hdeliver
  | false => exact hdeliver

/-- Recording the sender comes first and may find the table full; the event is queued and
acknowledged all the same. -/
theorem react_migrate_keeps (s : Setup) (origin : Address) (now : Nat) (id : NodeId)
    (gene : Gene) (fitness : Binary64) :
    (react s origin now (.migrate id gene fitness)).Keeps s.hash (fun _ d => d = .idle)
      (.push (.formula id origin (.withFitness gene fitness))) := by
  refine (observe_unnoticed ..).bind_keeps fun _ => ?_
  refine (deliver_keeps _ _).bind fun accepted d hd => ?_
  have hstatus : d = .acknowledge origin (ackStatus accepted) := by
    rw [hd]
    cases accepted <;> rfl
  rw [hstatus]
  exact transmitCounted_keeps s origin id _

/-- Handling a datagram discharges the duty of that datagram. -/
theorem handle_discharges (s : Setup) (datagram : List UInt8) (origin : Address) (now : Nat) :
    (handle s datagram origin now).Keeps s.hash (fun _ d => d = .idle)
      (.ofEvent? (dueEvent s datagram origin)) := by
  have hcount : ∀ counter, (Routine.of (.count counter 1)).All (Unnoticed s.hash) :=
    fun _ => all_of trivial
  refine (hcount _).bind_keeps fun _ => ?_
  rw [dueEvent]
  cases hdecode : Frame.decode s.hash (datagram.take receiveLimit) with
  | error _ =>
    have hnone : ∀ m, Frame.decode s.hash datagram ≠ .ok m := by
      intro m h
      rw [Frame.decode_take_receiveLimit.mpr h] at hdecode
      cases hdecode
    split
    · rename_i h
      exact absurd h (hnone _)
    · rename_i h
      exact absurd h (hnone _)
    · exact (hcount _).keeps
  | ok m =>
    rw [Frame.decode_take_receiveLimit.mp hdecode]
    cases m with
    | hello id =>
      by_cases hown : id = s.nodeId
      · simp only [Message.sender?, hown, if_true]
        exact keeps_pure rfl
      · simp only [Message.sender?, Option.some.injEq, if_neg hown]
        exact react_hello_keeps s origin now id
    | migrate id gene fitness =>
      by_cases hown : id = s.nodeId
      · simp only [Message.sender?, hown, if_true]
        exact keeps_pure rfl
      · simp only [Message.sender?, Option.some.injEq, if_neg hown]
        -- a valid fitness is in bounds already, so clamping leaves it as it is
        have hvalid := (Frame.decode_eq_ok_iff.mp hdecode).2
        have hkeeps := react_migrate_keeps s origin now id gene fitness
        rwa [Formula.withFitness, Binary64.clampUnit_of_within hvalid] at hkeeps
    | ack status =>
      simp only [Message.sender?, reduceCtorEq, if_false]
      have htouch : (Routine.of (.touch origin now)).All (Unnoticed s.hash) := all_of trivial
      exact (hcount _).bind_keeps fun _ => htouch.keeps

end AffineSwarm.Engine
