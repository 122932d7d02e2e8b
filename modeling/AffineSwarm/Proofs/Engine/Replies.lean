import AffineSwarm.Proofs.Engine.Accesses
import AffineSwarm.Proofs.Engine.Datagram
import Mathlib.Algebra.BigOperators.Fin

/-!
# What a datagram is answered with

An engine that handles a datagram sends at most one frame, to where the datagram came from,
and most datagrams it does not answer at all. This is said of every trace of the routine
that handles it: of what it may have done up to any point, whatever its accesses gave
(`Routine.Trace`).

So answers have a price. A routine is given a budget, from which it pays for each frame it
sends, and it earns one for each node that it enters into the table (`Routine.Costs`).
Handling a migration needs a budget of one, for the acknowledgement. Handling anything else
needs none, as it is a node entered just now that is greeted back (`costs_handle`).

## Results

* `Routine.Trace.bind` — a trace of one routine after another.
* `sends_react`, `sends_handle` — the frames that a datagram is answered with.
* `Routine.Costs.access` — a budget after one access.
* `costs_handle` — the budget to handle a datagram.
-/

namespace AffineSwarm.Engine

-- ---------------------------------------------------------------------------
-- Traces
-- ---------------------------------------------------------------------------

namespace Routine

variable {α β : Type} {allowed : Access → Prop} {made : List Performed}

/-- A routine may have made these accesses, with what they gave, and then has this left. -/
inductive Trace : Routine α → List Performed → Routine α → Prop
  | nil (r : Routine α) : Trace r [] r
  | cons {a : Access} {next : a.Answer → Routine α} {answer : a.Answer} {made : List Performed}
      {left : Routine α} (trace : Trace (next answer) made left) :
      Trace (.access a next) (⟨a, answer⟩ :: made) left

theorem Trace.forall_mem {r left : Routine α} (h : r.Trace made left) (hall : r.All allowed) :
    ∀ p ∈ made, allowed p.access := by
  induction h with
  | nil r => nofun
  | cons _ ih => exact List.forall_mem_cons.mpr ⟨hall.1, ih (hall.2 _)⟩

/-- A trace of one routine after the other is one of the first routine, or it has gone through
the first and on to the second. -/
theorem Trace.bind {r : Routine α} {rest : α → Routine β} {left : Routine β}
    (h : (r >>= rest).Trace made left) :
    (∃ left', r.Trace made left') ∨
      ∃ first result second, made = first ++ second ∧ r.Trace first (.done result) ∧
        (rest result).Trace second left := by
  induction r generalizing made with
  | done result => exact .inr ⟨[], result, made, rfl, .nil _, h⟩
  | access a next ih =>
    cases h with
    | nil => exact .inl ⟨_, .nil _⟩
    | @cons _ _ answer more _ htail =>
      rcases ih answer htail with ⟨left', hleft⟩ | ⟨first, result, second, rfl, hfirst, hsecond⟩
      · exact .inl ⟨left', .cons hleft⟩
      · exact .inr ⟨⟨a, answer⟩ :: first, result, second, rfl, .cons hfirst, hsecond⟩

end Routine

open Routine (Trace all_pure all_of)

-- ---------------------------------------------------------------------------
-- The frames that are sent
-- ---------------------------------------------------------------------------

/-- The frame that an access hands to the socket, and where it is to go. -/
def Performed.send? : Performed → Option (List UInt8 × Address)
  | ⟨.send frame target, _⟩ => some (frame, target)
  | _ => none

/-- The frames that were handed to the socket, whether they left or not. -/
def sends (made : List Performed) : List (List UInt8 × Address) := made.filterMap Performed.send?

/-- The accesses that send nothing. -/
def Mute : Access → Prop
  | .send _ _ => False
  | _ => True

theorem Neutral.mute {a : Access} (h : Neutral a) : Mute a := by
  cases a with
  | send frame target => exact h
  | _ => trivial

theorem Mute.send? {p : Performed} (h : Mute p.access) : p.send? = none := by
  obtain ⟨a, answer⟩ := p
  cases a with
  | send frame target => exact h.elim
  | _ => rfl

theorem sends_eq_nil {α : Type} {r left : Routine α} {made : List Performed}
    (hall : r.All Mute) (h : r.Trace made left) : sends made = [] := by
  refine List.filterMap_eq_nil_iff.mpr fun p hp => ?_
  exact (h.forall_mem hall p hp).send?

theorem sends_append (first second : List Performed) :
    sends (first ++ second) = sends first ++ sends second := List.filterMap_append

variable {made : List Performed}

theorem mute_deliver (event : Event) : (deliver event).All Mute :=
  (neutral_deliver event).mono fun _ => Neutral.mute

theorem mute_observe (id : NodeId) (address : Address) (now : Nat) :
    (observe id address now).All Mute :=
  (all_observe id address now).mono fun _ h => h ▸ trivial

/-- What follows a routine and is mute changes nothing about what was sent. -/
theorem sends_bind_mute {α β : Type} (P : List (List UInt8 × Address) → Prop) {r : Routine α}
    {rest : α → Routine β} {left : Routine β} (h : (r >>= rest).Trace made left)
    (hfirst : ∀ first left', r.Trace first left' → P (sends first))
    (hrest : ∀ result, (rest result).All Mute) : P (sends made) := by
  rcases h.bind with ⟨left', hleft⟩ | ⟨first, result, second, rfl, hdone, hsecond⟩
  · exact hfirst _ _ hleft
  · rw [sends_append, sends_eq_nil (hrest result) hsecond, List.append_nil]
    exact hfirst _ _ hdone

/-- What comes before a routine and is mute changes nothing about what is sent. -/
theorem sends_mute_bind {α β : Type} {r : Routine α} {rest : α → Routine β} {left : Routine β}
    (hmute : r.All Mute) (h : (r >>= rest).Trace made left) :
    sends made = [] ∨ ∃ first result second, made = first ++ second ∧
      r.Trace first (.done result) ∧ (rest result).Trace second left ∧
      sends made = sends second := by
  rcases h.bind with ⟨_, hfirst⟩ | ⟨first, result, second, rfl, hfirst, hsecond⟩
  · exact .inl (sends_eq_nil hmute hfirst)
  · refine .inr ⟨first, result, second, rfl, hfirst, hsecond, ?_⟩
    rw [sends_append, sends_eq_nil hmute hfirst, List.nil_append]

/-- Nothing but one frame for one address was handed to the socket. -/
def SendsOnly (frame : List UInt8) (target : Address) (sent : List (List UInt8 × Address)) :
    Prop := sent = [] ∨ sent = [(frame, target)]

theorem sends_transmitCounted {counter : Counter} {frame : List UInt8} {target : Address}
    {id : NodeId} {left : Routine Unit}
    (h : (transmitCounted counter frame target id).Trace made left) :
    SendsOnly frame target (sends made) := by
  refine sends_bind_mute _ h (fun first _ htransmit => ?_) fun succeeded => ?_
  · refine sends_bind_mute _ htransmit (fun first _ hsend => ?_) fun succeeded => ?_
    · cases hsend with
      | nil => exact .inl rfl
      | cons hdone =>
        cases hdone
        exact .inr rfl
    · cases succeeded with
      | true => exact all_pure _
      | false => exact .bind ((neutral_blame _).mono fun _ => Neutral.mute) fun _ => all_pure _
  · cases succeeded with
    | true => exact all_of trivial
    | false => exact all_pure _

-- ---------------------------------------------------------------------------
-- The answer to a datagram
-- ---------------------------------------------------------------------------

/-- The frames with which a message of another node may be answered, after these accesses:
a greeting with a greeting, if the node was entered into the table just now, and a migration
with an acknowledgement. -/
def Answers (s : Setup) (origin : Address) (now : Nat) (made : List Performed)
    (frame : List UInt8) : Message → Prop
  | .hello id => frame = s.greeting ∧ ⟨.upsert id origin now, .ok .inserted⟩ ∈ made
  | .migrate _ _ _ => ∃ accepted, frame = s.encode (.ack (ackStatus accepted))
  | .ack _ => False

theorem Answers.append {s : Setup} {origin : Address} {now : Nat} {frame : List UInt8}
    {m : Message} (h : Answers s origin now made frame m) (before : List Performed) :
    Answers s origin now (before ++ made) frame m := by
  cases m with
  | hello id => exact ⟨h.1, List.mem_append_right _ h.2⟩
  | migrate id gene fitness => exact h
  | ack status => exact h

/-- A node that counts as new was entered just now. -/
theorem mem_of_observe {id : NodeId} {address : Address} {now : Nat}
    (h : (observe id address now).Trace made (.done true)) :
    ⟨.upsert id address now, .ok .inserted⟩ ∈ made := by
  cases h with
  | @cons _ _ answer _ _ hrest =>
    match answer, hrest with
    | .ok .inserted, _ => exact List.mem_cons_self
    | .ok .refreshed, hrest => cases hrest
    | .error _, hrest => cases hrest

/-- A message of another node is answered at most once, to where it came from. -/
theorem sends_react {s : Setup} {origin : Address} {now : Nat} {m : Message}
    {left : Routine Unit} (h : (react s origin now m).Trace made left) :
    sends made = [] ∨ ∃ frame, sends made = [(frame, origin)] ∧
      Answers s origin now made frame m := by
  cases m with
  | hello id =>
    have hdeliver : (deliver (.hello id origin) >>= fun _ => pure ()).All Mute :=
      .bind (mute_deliver _) fun _ => all_pure _
    rcases sends_mute_bind (mute_observe ..) h with
      hnone | ⟨first, isNew, second, rfl, hobserve, hsecond, hsends⟩
    · exact .inl hnone
    · rw [hsends]
      cases isNew with
      | false => exact .inl (sends_eq_nil hdeliver hsecond)
      | true =>
        have hgreeted : SendsOnly s.greeting origin (sends second) :=
          sends_bind_mute _ hsecond (fun _ _ => sends_transmitCounted) fun _ => hdeliver
        refine hgreeted.imp_right fun hsent => ⟨_, hsent, rfl, ?_⟩
        exact List.mem_append_left _ (mem_of_observe hobserve)
  | migrate id gene fitness =>
    rcases sends_mute_bind (mute_observe ..) h with
      hnone | ⟨first, _, second, rfl, -, hsecond, hsends⟩
    · exact .inl hnone
    rw [hsends]
    rcases sends_mute_bind (mute_deliver _) hsecond with
      hnone | ⟨third, accepted, fourth, rfl, -, hfourth, hsends⟩
    · exact .inl hnone
    rw [hsends]
    exact (sends_transmitCounted hfourth).imp_right fun hsent => ⟨_, hsent, accepted, rfl⟩
  | ack status =>
    have hmute : (react s origin now (.ack status)).All Mute :=
      .bind (all_of trivial) fun _ => all_of trivial
    exact .inl (sends_eq_nil hmute h)

/-- A datagram is answered at most once, to where it came from, and only if it is a message
of another node that has an answer. -/
theorem sends_handle {s : Setup} {datagram : List UInt8} {origin : Address} {now : Nat}
    {left : Routine Unit} (h : (handle s datagram origin now).Trace made left) :
    sends made = [] ∨ ∃ frame m, sends made = [(frame, origin)] ∧
      Frame.decode s.hash datagram = .ok m ∧ m.sender? ≠ some s.nodeId ∧
      Answers s origin now made frame m := by
  have hcount : ∀ counter, (Routine.of (.count counter 1)).All Mute := fun _ => all_of trivial
  rcases sends_mute_bind (hcount _) h with hnone | ⟨first, _, second, rfl, -, hsecond, hsends⟩
  · exact .inl hnone
  rw [hsends]
  cases hdecode : Frame.decode s.hash (datagram.take receiveLimit) with
  | error _ =>
    rw [hdecode] at hsecond
    exact .inl (sends_eq_nil (hcount _) hsecond)
  | ok m =>
    simp only [hdecode] at hsecond
    by_cases hown : m.sender? = some s.nodeId
    · rw [if_pos hown] at hsecond
      exact .inl (sends_eq_nil (all_pure _) hsecond)
    · rw [if_neg hown] at hsecond
      refine (sends_react hsecond).imp_right ?_
      rintro ⟨frame, hsent, hanswers⟩
      exact ⟨frame, m, hsent, Frame.decode_take_receiveLimit.mp hdecode, hown,
        hanswers.append first⟩

-- ---------------------------------------------------------------------------
-- The price of answers
-- ---------------------------------------------------------------------------

/-- A node was entered into the table. -/
def Performed.enters : Performed → Bool
  | ⟨.upsert _ _ _, .ok .inserted⟩ => true
  | _ => false

/-- What sending those frames costs. -/
def cost (weight : List UInt8 → Nat) (made : List Performed) : Nat :=
  ((sends made).map fun sent => weight sent.1).sum

theorem cost_of_mute {weight : List UInt8 → Nat} {p : Performed} (h : Mute p.access) :
    cost weight [p] = 0 := by
  rw [cost, sends, List.filterMap_cons_none h.send?]
  rfl

/-- What entering those nodes earns. -/
def earned (made : List Performed) : Nat := made.countP Performed.enters

namespace Routine

variable {α : Type} {weight : List UInt8 → Nat}

/-- Up to any point, the routine spends no more than a budget and what it has earned. -/
def Costs (weight : List UInt8 → Nat) (budget : Nat) (r : Routine α) : Prop :=
  ∀ made left, r.Trace made left → cost weight made ≤ budget + earned made

/-- A routine that sends nothing costs nothing. -/
theorem All.costs {r : Routine α} (h : r.All Mute) : r.Costs weight 0 := by
  intro made left htrace
  rw [cost, sends_eq_nil h htrace]
  exact Nat.zero_le _

/-- An access is paid for, and what is left of the budget is enough for what is left to do. -/
theorem Costs.access {budget : Nat} {a : Access} {next : a.Answer → Routine α}
    (h : (access a next).Costs weight budget) (answer : a.Answer) :
    cost weight [⟨a, answer⟩] ≤ budget + earned [⟨a, answer⟩] ∧
      (next answer).Costs weight (budget + earned [⟨a, answer⟩] - cost weight [⟨a, answer⟩]) := by
  refine ⟨h _ _ (.cons (.nil _)), fun made left htrace => ?_⟩
  have hpaid := h _ _ (.cons htrace)
  have hcost : cost weight (⟨a, answer⟩ :: made) =
      cost weight [⟨a, answer⟩] + cost weight made := by
    rw [cost, ← List.singleton_append, sends_append, List.map_append, List.sum_append]
    rfl
  have hearned : earned (⟨a, answer⟩ :: made) = earned [⟨a, answer⟩] + earned made := by
    rw [earned, ← List.singleton_append, List.countP_append]
    rfl
  omega

end Routine

/-- The datagram is read as a message of a kind. -/
def reads (hash : KeyedHash) (kind : UInt8) (datagram : List UInt8) : Bool :=
  match Frame.decode hash datagram with
  | .ok m => Frame.kind m == kind
  | .error _ => false

/-- Handling a migration costs one answer at most, and handling any other datagram no more
than it earns, if answers weigh one at most. -/
theorem costs_handle {s : Setup} {weight : List UInt8 → Nat}
    (hgreeting : weight s.greeting ≤ 1) (hack : ∀ status, weight (s.encode (.ack status)) ≤ 1)
    (datagram : List UInt8) (origin : Address) (now : Nat) :
    (handle s datagram origin now).Costs weight
      (if reads s.hash Frame.migrateKind datagram then 1 else 0) := by
  intro made left htrace
  rcases sends_handle htrace with hnone | ⟨frame, m, hsent, hdecode, -, hanswers⟩
  · rw [cost, hnone]
    exact Nat.zero_le _
  · have hcost : cost weight made = weight frame := by
      rw [cost, hsent]
      exact Nat.add_zero _
    rw [hcost, reads, hdecode]
    cases m with
    | hello id =>
      obtain ⟨rfl, hentered⟩ := hanswers
      have hearned : 0 < earned made := List.countP_pos_iff.mpr ⟨_, hentered, rfl⟩
      exact Nat.le_trans hgreeting (Nat.le_add_left_of_le hearned)
    | migrate id gene fitness =>
      obtain ⟨accepted, rfl⟩ := hanswers
      exact Nat.le_trans (hack _) (Nat.le_add_right _ _)
    | ack status => exact hanswers.elim

end AffineSwarm.Engine
