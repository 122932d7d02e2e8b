import AffineSwarm.Event.Queue
import AffineSwarm.Proofs.Event.Ring

/-!
# The event queue is a bounded list

Three queues offer the same operations: the ring that the engine uses, a ring that breaks off
where an index is out of range or a reduction is modulo zero (`Ring.checked`), and a list of
events that never grows past its capacity (`Backlog`). One queue simulates another if, from
related states, every operation gives the same on both and leaves related states
(`Simulates`); then so does every sequence of calls, waits and other threads included
(`Simulates.makeAll`).

A call that waits computes its deadline before it looks at the queue. If the clock cannot show
the deadline, the call breaks off, and an event that is queued stays where it is
(`Operations.popTimeout_of_late`).

## Results

* `checked_simulates` — the ring never breaks off where it is checked.
* `operations_simulates` — the ring gives what the bounded list gives.
* `event_queue_is_bounded_list` — both, for every sequence of calls on a new queue.
* `late_deadline_gives_no_event` — a queued event that a call with a long timeout does not get.
-/

namespace AffineSwarm

-- ---------------------------------------------------------------------------
-- A ring whose indices are checked
-- ---------------------------------------------------------------------------

namespace Ring

variable {α : Type} {r : Ring α} {xs : List α}

/-- The slot of an offset, unless that is a reduction modulo zero. -/
def place? (r : Ring α) (offset : Nat) : Option Nat :=
  if r.capacity = 0 then none else some (r.place offset)

/-- The slots with a new content in one of them, unless that is out of range. -/
def write? (r : Ring α) (slot : Nat) (content : Option α) : Option (List (Option α)) :=
  if slot < r.capacity then some (r.slots.set slot content) else none

def push? (r : Ring α) (a : α) : Option (Bool × Ring α) :=
  if r.length = r.capacity then some (false, { r with rejected := r.rejected + 1 })
  else do
    let tail ← r.place? r.length
    let slots ← r.write? tail (some a)
    return (true, { r with slots, length := r.length + 1 })

def pop? (r : Ring α) : Option (Option α × Ring α) :=
  if r.length = 0 then some (none, r)
  else do
    let content ← r.slots[r.head]?
    let slots ← r.write? r.head none
    let head ← r.place? 1
    return (content, { r with slots, head, length := r.length - 1 })

def popMany? : Nat → Ring α → Option (List α × Ring α)
  | 0, r => some ([], r)
  | n + 1, r => do
    match ← r.pop? with
    | (none, r) => return ([], r)
    | (some a, r) =>
      let (rest, r) ← popMany? n r
      return (a :: rest, r)

def drain? (r : Ring α) : Option (List α × Ring α) := popMany? r.length r

theorem Represents.place?_eq (h : r.Represents xs) (offset : Nat) :
    r.place? offset = some (r.place offset) :=
  if_neg (Nat.ne_of_gt (Nat.zero_lt_of_lt h.head_lt))

theorem Represents.push?_eq (h : r.Represents xs) (a : α) : r.push? a = some (r.push a) := by
  rw [push?, Ring.push]
  split
  · rfl
  · rw [h.place?_eq, Option.bind_eq_bind, Option.bind_some, write?, if_pos (place_lt h.head_lt)]
    rfl

theorem Represents.pop?_eq (h : r.Represents xs) : r.pop? = some r.pop := by
  have hhead : r.slots[r.head]? = some (r.slots.getD r.head none) := by
    rw [List.getD_eq_getElem?_getD, List.getElem?_eq_getElem h.head_lt, Option.getD_some]
  rw [pop?, Ring.pop]
  split
  · rfl
  · simp only [hhead, h.place?_eq, write?, if_pos h.head_lt, Option.bind_eq_bind, Option.bind_some]
    rfl

theorem Represents.popMany?_eq (h : r.Represents xs) (n : Nat) :
    popMany? n r = some (Ring.popMany n r) := by
  induction n generalizing r xs with
  | zero => rfl
  | succ n ih =>
    rw [popMany?, Ring.popMany, h.pop?_eq, Option.bind_eq_bind, Option.bind_some]
    cases xs with
    | nil =>
      rw [h.pop_nil]
      rfl
    | cons x xs =>
      obtain ⟨hx, hrest⟩ := h.pop
      rw [show r.pop = (some x, r.pop.2) from Prod.ext hx rfl]
      simp only [ih hrest, Option.bind_eq_bind, Option.bind_some]
      rfl

theorem Represents.drain?_eq (h : r.Represents xs) : r.drain? = some r.drain :=
  h.popMany?_eq _

/-- Exactly the slots of the queued elements are occupied. -/
theorem Represents.occupied_iff (h : r.Represents xs) (slot : Nat) :
    (∃ a, r.slots[slot]? = some (some a)) ↔
      ∃ offset < r.length, slot = (r.head + offset) % r.capacity := by
  constructor
  · rintro ⟨a, ha⟩
    -- every slot is the place of some offset
    have hlt : slot < r.capacity := (List.getElem?_eq_some_iff.mp ha).1
    obtain ⟨offset, hoffset, rfl⟩ : ∃ offset < r.capacity, r.place offset = slot := by
      have hhead := h.head_lt
      by_cases hafter : r.head ≤ slot
      · refine ⟨slot - r.head, by omega, ?_⟩
        rw [place_eq h.head_lt (by omega), if_pos (by omega)]
        omega
      · refine ⟨slot + r.capacity - r.head, by omega, ?_⟩
        rw [place_eq h.head_lt (by omega), if_neg (by omega)]
        omega
    rw [h.slot offset hoffset] at ha
    rw [h.length_eq]
    exact ⟨offset, (List.getElem?_eq_some_iff.mp (Option.some.inj ha)).1, rfl⟩
  · rintro ⟨offset, hlt, rfl⟩
    rw [h.length_eq] at hlt
    refine ⟨xs[offset], ?_⟩
    have hslot := h.slot offset (Nat.lt_of_lt_of_le hlt h.length_le)
    rw [List.getElem?_eq_getElem hlt] at hslot
    exact hslot

end Ring

-- ---------------------------------------------------------------------------
-- The bounded list
-- ---------------------------------------------------------------------------

/-- A list of events, oldest first, that has no more of them than its capacity. -/
structure Backlog where
  capacity : Nat
  waiting : List Event
  /-- How many events were refused. -/
  rejected : Nat
  bounded : waiting.length ≤ capacity

namespace Backlog

def empty (capacity : Nat) : Backlog := ⟨capacity, [], 0, Nat.zero_le _⟩

def push (event : Event) (b : Backlog) : Except QueueFull Unit × Backlog :=
  if room : b.waiting.length < b.capacity then
    (.ok (),
      { b with
        waiting := b.waiting ++ [event]
        bounded := by rw [List.length_append, List.length_singleton]; exact room })
  else (.error ⟨event⟩, { b with rejected := b.rejected + 1 })

def pop (b : Backlog) : Option Event × Backlog :=
  (b.waiting.head?,
    { b with
      waiting := b.waiting.tail
      bounded := Nat.le_trans (by rw [List.length_tail]; exact Nat.sub_le _ _) b.bounded })

def drain (b : Backlog) : List Event × Backlog :=
  (b.waiting, { b with waiting := [], bounded := Nat.zero_le _ })

def operations : EventQueue.Operations Backlog where
  push event b := some (b.push event)
  pop b := some b.pop
  drain b := some b.drain

end Backlog

-- ---------------------------------------------------------------------------
-- Simulation
-- ---------------------------------------------------------------------------

namespace EventQueue

variable {σ τ : Type} {R : σ → τ → Prop}

/-- Two operations that do not break off, give the same and leave related states. -/
def Agree {α : Type} (R : σ → τ → Prop) (x : Option (α × σ)) (y : Option (α × τ)) : Prop :=
  ∃ result q b, x = some (result, q) ∧ y = some (result, b) ∧ R q b

theorem Agree.pure {α : Type} {q : σ} {b : τ} (h : R q b) (result : α) :
    Agree R (pure (result, q)) (pure (result, b)) := ⟨result, q, b, rfl, rfl, h⟩

theorem Agree.bind {α β : Type} {x : Option (α × σ)} {y : Option (α × τ)}
    {f : α × σ → Option (β × σ)} {g : α × τ → Option (β × τ)} (h : Agree R x y)
    (hrest : ∀ result q b, R q b → Agree R (f (result, q)) (g (result, b))) :
    Agree R (x >>= f) (y >>= g) := by
  obtain ⟨result, q, b, rfl, rfl, hrelated⟩ := h
  exact hrest result q b hrelated

namespace Operations

/-- From related states, every operation agrees. -/
structure Simulates (ops : Operations σ) (spec : Operations τ) (R : σ → τ → Prop) : Prop where
  push : ∀ {q b}, R q b → ∀ event, Agree R (ops.push event q) (spec.push event b)
  pop : ∀ {q b}, R q b → Agree R (ops.pop q) (spec.pop b)
  drain : ∀ {q b}, R q b → Agree R (ops.drain q) (spec.drain b)

variable {ops : Operations σ} {spec : Operations τ} {q : σ} {b : τ}

theorem Simulates.perform (h : ops.Simulates spec R) (hrelated : R q b) (a : Access) :
    Agree R (ops.perform a q) (spec.perform a b) := by
  cases a with
  | push event => exact (h.push hrelated event).bind fun _ _ _ hafter => .pure hafter _
  | pop => exact (h.pop hrelated).bind fun _ _ _ hafter => .pure hafter _
  | drain => exact (h.drain hrelated).bind fun _ _ _ hafter => .pure hafter _

theorem Simulates.performAll (h : ops.Simulates spec R) (hrelated : R q b) (as : List Access) :
    Agree R (ops.performAll as q) (spec.performAll as b) := by
  induction as generalizing q b with
  | nil => exact .pure hrelated _
  | cons a rest ih =>
    refine (h.perform hrelated a).bind fun _ _ _ hmid => ?_
    exact (ih hmid).bind fun _ _ _ hafter => .pure hafter _

/-- A call that waits agrees, by induction on its waits. -/
theorem Simulates.popUntil (h : ops.Simulates spec R) (hrelated : R q b) (deadline : Nat)
    (waits : List Wait) :
    Agree R (ops.popUntil deadline waits q) (spec.popUntil deadline waits b) := by
  induction waits generalizing q b with
  | nil => exact h.performAll hrelated [.pop]
  | cons wait waits ih =>
    refine (h.pop hrelated).bind fun event _ _ hlook => ?_
    cases event with
    | some event => exact .pure hlook _
    | none =>
      refine (h.performAll hlook wait.meanwhile).bind fun _ q b hmid => ?_
      have hlast : Agree R
          (if wait.timedOut deadline then ops.performAll [.pop] q
            else ops.popUntil deadline waits q)
          (if wait.timedOut deadline then spec.performAll [.pop] b
            else spec.popUntil deadline waits b) := by
        split
        · exact h.performAll hmid [.pop]
        · exact ih hmid
      exact hlast.bind fun _ _ _ hafter => .pure hafter _

theorem Simulates.popTimeout (h : ops.Simulates spec R) (hrelated : R q b) (now timeout : Nat)
    (waits : List Wait) :
    Agree R (ops.popTimeout now timeout waits q) (spec.popTimeout now timeout waits b) := by
  rw [Operations.popTimeout, Operations.popTimeout]
  cases deadline? now timeout with
  | none => exact .pure hrelated _
  | some deadline => exact h.popUntil hrelated deadline waits

theorem Simulates.make (h : ops.Simulates spec R) (hrelated : R q b) (c : Call) :
    Agree R (ops.make c q) (spec.make c b) := by
  cases c with
  | access a => exact h.performAll hrelated [a]
  | popTimeout now timeout waits => exact h.popTimeout hrelated now timeout waits

theorem Simulates.makeAll (h : ops.Simulates spec R) (hrelated : R q b) (calls : List Call) :
    Agree R (ops.makeAll calls q) (spec.makeAll calls b) := by
  induction calls generalizing q b with
  | nil => exact .pure hrelated _
  | cons c rest ih =>
    refine (h.make hrelated c).bind fun _ _ _ hmid => ?_
    exact (ih hmid).bind fun _ _ _ hafter => .pure hafter _

end Operations

-- ---------------------------------------------------------------------------
-- The ring and the list
-- ---------------------------------------------------------------------------

/-- A ring stands for a list that is bounded by a capacity. -/
structure StandsFor (capacity : Nat) (q : EventQueue) (b : Backlog) : Prop where
  represents : q.Represents b.waiting
  capacity_eq : q.capacity = capacity
  bound_eq : b.capacity = capacity
  rejected_eq : q.rejected = b.rejected

variable {capacity : Nat} {q : EventQueue} {b : Backlog}

theorem standsFor_empty (capacity : Nat) :
    StandsFor (max capacity 1) (.empty capacity) (.empty (max capacity 1)) where
  represents := Ring.represents_empty capacity
  capacity_eq := List.length_replicate
  bound_eq := rfl
  rejected_eq := rfl

theorem StandsFor.push (h : StandsFor capacity q b) (event : Event) :
    Agree (StandsFor capacity) (operations.push event q) (Backlog.operations.push event b) := by
  have hrejected := Ring.rejected_push q event
  have hcapacity := (Ring.capacity_push q event).trans h.capacity_eq
  simp only [operations, offer, Backlog.operations, Backlog.push]
  by_cases hroom : b.waiting.length < b.capacity
  · have hspace : b.waiting.length < q.capacity := by rwa [h.capacity_eq, ← h.bound_eq]
    obtain ⟨haccepted, hqueued⟩ := h.represents.push hspace event
    simp only [haccepted, if_true, Nat.add_zero] at hrejected
    simp only [haccepted, if_true, dif_pos hroom]
    exact ⟨_, _, _, rfl, rfl, hqueued, hcapacity, h.bound_eq, hrejected.trans h.rejected_eq⟩
  · have hfull : b.waiting.length = q.capacity := by
      rw [h.capacity_eq, ← h.bound_eq]
      exact Nat.le_antisymm b.bounded (Nat.le_of_not_lt hroom)
    obtain ⟨hrefused, hkept⟩ := h.represents.push_full hfull event
    simp only [hrefused, Bool.false_eq_true, if_false, h.rejected_eq] at hrejected
    simp only [hrefused, Bool.false_eq_true, if_false, dif_neg hroom]
    exact ⟨_, _, _, rfl, rfl, hkept, hcapacity, h.bound_eq, hrejected⟩

theorem StandsFor.pop (h : StandsFor capacity q b) :
    Agree (StandsFor capacity) (operations.pop q) (Backlog.operations.pop b) := by
  have hrejected := q.rejected_pop.trans h.rejected_eq
  have hcapacity := q.capacity_pop.trans h.capacity_eq
  obtain ⟨bound, waiting, rejected, bounded⟩ := b
  cases waiting with
  | nil => exact ⟨none, q, _, congrArg some h.represents.pop_nil, rfl, h⟩
  | cons event rest =>
    obtain ⟨htaken, hleft⟩ := h.represents.pop
    exact ⟨some event, q.pop.2, _, congrArg some (Prod.ext htaken rfl), rfl, hleft, hcapacity,
      h.bound_eq, hrejected⟩

theorem StandsFor.drain (h : StandsFor capacity q b) :
    Agree (StandsFor capacity) (operations.drain q) (Backlog.operations.drain b) := by
  obtain ⟨htaken, hempty⟩ := h.represents.drain
  exact ⟨b.waiting, q.drain.2, _, congrArg some (Prod.ext htaken rfl), rfl, hempty,
    (Ring.capacity_popMany _ q).trans h.capacity_eq, h.bound_eq,
    (Ring.rejected_popMany _ q).trans h.rejected_eq⟩

/-- The ring gives what the bounded list gives. -/
theorem operations_simulates (capacity : Nat) :
    operations.Simulates Backlog.operations (StandsFor capacity) where
  push h event := h.push event
  pop h := h.pop
  drain h := h.drain

/-- The operations of the ring, broken off where an index is out of range or a reduction is
modulo zero. -/
def checked : Operations EventQueue where
  push event q := do
    let (accepted, q) ← q.push? event
    return (if accepted then .ok () else .error ⟨event⟩, q)
  pop q := q.pop?
  drain q := q.drain?

/-- The ring never breaks off where it is checked. -/
theorem checked_simulates (capacity : Nat) :
    checked.Simulates operations fun q q' => q = q' ∧ ∃ b, StandsFor capacity q b := by
  -- an operation that the check lets pass leaves a ring that stands for a list
  have hpassed : ∀ {α : Type} {q : EventQueue} {b : Backlog} {x : Option (α × EventQueue)}
      {y : α × EventQueue} {z : Option (α × Backlog)}, x = some y →
      Agree (StandsFor capacity) (some y) z →
      Agree (fun q q' => q = q' ∧ ∃ b, StandsFor capacity q b) x (some y) := by
    rintro α q b x y z rfl ⟨result, q', b', hy, -, hafter⟩
    cases hy
    exact ⟨result, q', q', rfl, rfl, rfl, b', hafter⟩
  constructor
  · rintro q _ ⟨rfl, b, h⟩ event
    refine hpassed (b := b) (q := q) ?_ (h.push event)
    simp only [checked, h.represents.push?_eq]
    rfl
  · rintro q _ ⟨rfl, b, h⟩
    exact hpassed (b := b) (q := q) h.represents.pop?_eq h.pop
  · rintro q _ ⟨rfl, b, h⟩
    exact hpassed (b := b) (q := q) h.represents.drain?_eq h.drain

-- ---------------------------------------------------------------------------
-- The event queue
-- ---------------------------------------------------------------------------

/-- Who finds an event does not wait. -/
theorem Operations.popTimeout_of_pop {σ : Type} {ops : Operations σ} {q q' : σ} {event : Event}
    (h : ops.pop q = some (some event, q')) {now timeout : Nat}
    (htime : now + timeout < clockLimit) (waits : List Wait) :
    ops.popTimeout now timeout waits q = some ([.popped (some event)], q') := by
  rw [popTimeout, deadline?, if_pos htime]
  cases waits with
  | nil => simp [popUntil, performAll, perform, h]
  | cons wait waits => simp [popUntil, h]

/-- Without a deadline the call does not come to look at the queue. -/
theorem Operations.popTimeout_of_late {σ : Type} (ops : Operations σ) (q : σ)
    {now timeout : Nat} (hlate : clockLimit ≤ now + timeout) (waits : List Wait) :
    ops.popTimeout now timeout waits q = some ([.noDeadline], q) := by
  rw [popTimeout, deadline?, if_neg (Nat.not_lt.mpr hlate)]
  rfl

/-- A queue comes into being exactly if an array may have its slots. -/
theorem create?_eq_some_iff {slotBytes capacity : Nat} :
    create? slotBytes capacity = some q ↔
      max capacity 1 * slotBytes ≤ arrayLimit ∧ q = .empty capacity := by
  rw [create?]
  split
  · rename_i hfits
    exact ⟨fun h => ⟨hfits, (Option.some.inj h).symm⟩, fun h => congrArg some h.2.symm⟩
  · rename_i hwide
    exact ⟨nofun, fun h => absurd h.1 hwide⟩

theorem StandsFor.pop_eq_none_iff (h : StandsFor capacity q b) : q.pop.1 = none ↔ q.length = 0 := by
  rw [h.represents.length_eq, List.length_eq_zero_iff]
  constructor
  · intro hnone
    cases hwaiting : b.waiting with
    | nil => rfl
    | cons event rest =>
      rw [(hwaiting ▸ h.represents : q.Represents (event :: rest)).pop.1] at hnone
      cases hnone
  · intro hempty
    rw [(hempty ▸ h.represents : q.Represents []).pop_nil]

/-- **The event queue is a bounded list.** For every capacity, where zero counts as one, a
queue comes into being unless its slots are more bytes than an array may have. For every
sequence of calls on it, those of other threads during waits included:

* every call gives what it gives on a list of events that is bounded by the capacity, and the
  queue holds that list, with as many events refused;
* no index is ever out of range and no reduction modulo zero;
* exactly the slots from the head on, as many as there are events, are occupied;
* taking an event gives none only if the queue is empty, and otherwise the oldest, at once if
  the call could wait;
* but a call that could wait breaks off, and leaves the queue as it was, if the clock cannot
  show its deadline, whatever is queued.
-/
theorem event_queue_is_bounded_list (slotBytes capacity : Nat) :
    (create? slotBytes capacity = none ↔ arrayLimit < max capacity 1 * slotBytes) ∧
    ∀ start, create? slotBytes capacity = some start → ∀ calls : List Call, ∃ outcomes q b,
      (operations.makeAll calls start = some (outcomes, q) ∧
        Backlog.operations.makeAll calls (.empty (max capacity 1)) = some (outcomes, b) ∧
        checked.makeAll calls start = some (outcomes, q)) ∧
      (q.toList = b.waiting ∧ q.length = b.waiting.length ∧ q.rejected = b.rejected ∧
        q.capacity = max capacity 1 ∧ q.length ≤ q.capacity) ∧
      (∀ slot, (∃ event, q.slots[slot]? = some (some event)) ↔
        ∃ offset < q.length, slot = (q.head + offset) % q.capacity) ∧
      (q.pop.1 = none ↔ q.length = 0) ∧
      ∀ now timeout waits,
        (clockLimit ≤ now + timeout →
          operations.popTimeout now timeout waits q = some ([.noDeadline], q)) ∧
        ∀ event rest, now + timeout < clockLimit → q.toList = event :: rest → ∃ q',
          operations.popTimeout now timeout waits q = some ([.popped (some event)], q') ∧
            q'.toList = rest := by
  constructor
  · rw [create?, ite_eq_right_iff]
    simp only [reduceCtorEq, imp_false, Nat.not_le]
  · intro start hcreated calls
    obtain ⟨-, rfl⟩ := create?_eq_some_iff.mp hcreated
    have hstart := standsFor_empty capacity
    obtain ⟨outcomes, q, b, hring, hlist, h⟩ := (operations_simulates _).makeAll hstart calls
    obtain ⟨outcomes', q', _, hchecked, hsame, rfl, -⟩ :=
      (checked_simulates _).makeAll ⟨rfl, _, hstart⟩ calls
    rw [hring] at hsame
    cases hsame
    refine ⟨outcomes, q, b, ⟨hring, hlist, hchecked⟩, ⟨h.represents.toList_eq,
      h.represents.length_eq, h.rejected_eq, h.capacity_eq, ?_⟩, h.represents.occupied_iff,
      h.pop_eq_none_iff, fun now timeout waits => ⟨?_, ?_⟩⟩
    · rw [h.represents.length_eq]
      exact h.represents.length_le
    · intro hlate
      exact operations.popTimeout_of_late q hlate waits
    · intro event rest htime hoccupied
      rw [h.represents.toList_eq] at hoccupied
      obtain ⟨htaken, hleft⟩ := (hoccupied ▸ h.represents : q.Represents (event :: rest)).pop
      refine ⟨q.pop.2, Operations.popTimeout_of_pop ?_ htime waits, hleft.toList_eq⟩
      exact congrArg some (Prod.ext htaken rfl)

/-- A queue for which no room was asked has room for one event. The second event comes back,
the first one is found at once by a call that waits, and while the next call waits a third
event comes in. -/
theorem event_queue_is_bounded_list_of_one :
    let calls : List Call := [.access (.push (.hello 1 (.anyHost 1))),
      .access (.push (.hello 2 (.anyHost 2))), .popTimeout 0 5 [],
      .popTimeout 0 5 [⟨[.push (.hello 3 (.anyHost 3))], true, 2⟩]]
    create? 96 0 = some (.empty 0) ∧
    ∃ q, operations.makeAll calls (.empty 0) = some
        ([[.pushed (.ok ())], [.pushed (.error ⟨.hello 2 (.anyHost 2)⟩)],
          [.popped (some (.hello 1 (.anyHost 1)))],
          [.pushed (.ok ()), .popped (some (.hello 3 (.anyHost 3)))]], q) ∧
      q.length = 0 ∧ q.rejected = 1 ∧ q.capacity = 1 ∧ q.pop.1 = none ∧
      operations.popTimeout 1 clockLimit [] q = some ([.noDeadline], q) := by
  intro calls
  have hcreated : create? 96 0 = some (.empty 0) := rfl
  obtain ⟨-, hcalls⟩ := event_queue_is_bounded_list 96 0
  obtain ⟨outcomes, q, b, ⟨hring, hlist, -⟩, ⟨-, hlength, hrejected, hcapacity, -⟩, -, hnone,
    hwaiting⟩ := hcalls _ hcreated calls
  cases hlist
  refine ⟨hcreated, q, hring, hlength, hrejected, hcapacity, hnone.mpr hlength, ?_⟩
  exact (hwaiting 1 clockLimit []).1 (Nat.le_add_left ..)

/-- **A queued event is not always given.** A call that would wait as long as can be asked for
breaks off although an event is queued, which stays there; the bounded list would give it. And
the largest of all capacities that are positive as signed words gives no queue, whatever an
event takes. -/
theorem late_deadline_gives_no_event :
    let event : Event := .hello 1 (.anyHost 1)
    let longest : Nat := Duration.ofSeconds 18446744073709551615 + 999999999
    (∃ q, operations.makeAll [.access (.push event), .popTimeout 0 longest []] (.empty 1) =
        some ([[.pushed (.ok ())], [.noDeadline]], q) ∧ q.toList = [event]) ∧
      ∀ slotBytes, 2 ≤ slotBytes → create? slotBytes 9223372036854775807 = none := by
  intro event longest
  refine ⟨⟨_, rfl, rfl⟩, fun slotBytes hbytes => if_neg ?_⟩
  rw [Nat.max_eq_left (by decide), arrayLimit]
  omega

end EventQueue

end AffineSwarm
