import AffineSwarm.Proofs.Engine.Balance
import AffineSwarm.Proofs.Engine.Delivery
import AffineSwarm.Proofs.Engine.Rejection

/-!
# Conservation

Every counter of an engine counts what it is named for, and none is ahead or behind when no
routine is under way.

A meter reads the accesses of a run (`total`). What the state of an engine shows, its
counters included, are meters (`Gauges`). The accounts are differences of meters
(`sendAccount`, `ackAccount`, `refusalAccount`, `evictionAccount`, `receptionAccount`), and
along a run each account holds what is due for the datagrams that were received, but for
what the routines under way still leave on it (`Balanced`).

## Results

* `Gauges.run` — counters, attempts, refused events and the table as meters.
* `Balanced.run` — an account along a run.
* `counters_are_conserved` — the five balances between operations.
-/

namespace AffineSwarm

theorem Stats.read_add (s : Stats) (n : Nat) (counter c : Counter) :
    (s.add n c).read counter = s.read counter + if c = counter then n else 0 := by
  cases c <;> cases counter <;> rfl

namespace Engine

open Routine (Weighs)

-- ---------------------------------------------------------------------------
-- Meters
-- ---------------------------------------------------------------------------

/-- What some accesses amount to. -/
def total (meter : Performed → ℤ) (made : List Performed) : ℤ := (made.map meter).sum

/-- One for what satisfies a test. -/
def tally {α : Type} (test : α → Bool) (x : α) : ℤ := if test x then 1 else 0

/-- The meter of a counter. -/
def counting (counter : Counter) : Performed → ℤ
  | ⟨.count c n, _⟩ => if c = counter then n else 0
  | _ => 0

/-- The meter of evicted neighbors. -/
def evicting : Performed → ℤ
  | ⟨.evict _ _, gone⟩ => gone.length
  | _ => 0

/-- The queue refused an event. -/
def Performed.refuses : Performed → Bool
  | ⟨.push _, false⟩ => true
  | _ => false

/-- An attempt to send an acknowledgement that ended like this. -/
def Performed.isAck (hash : KeyedHash) (outcome : Bool) : Performed → Bool
  | ⟨.send frame _, succeeded⟩ => (ackStatus? hash frame).isSome && succeeded == outcome
  | _ => false

theorem total_append (meter : Performed → ℤ) (made more : List Performed) :
    total meter (made ++ more) = total meter made + total meter more := by
  rw [total, List.map_append, List.sum_append, total, total]

theorem total_singleton (meter : Performed → ℤ) (p : Performed) : total meter [p] = meter p :=
  add_zero _

theorem total_sub (meter meter' : Performed → ℤ) (made : List Performed) :
    total (fun p => meter p - meter' p) made = total meter made - total meter' made := by
  induction made with
  | nil => rfl
  | cons p rest ih =>
    simp only [total, List.map_cons, List.sum_cons] at ih ⊢
    omega

theorem sum_map_tally {α : Type} (test : α → Bool) (xs : List α) :
    (xs.map (tally test)).sum = xs.countP test := by
  induction xs with
  | nil => rfl
  | cons x rest ih =>
    rw [List.map_cons, List.sum_cons, ih, List.countP_cons, tally]
    split <;> push_cast <;> omega

theorem total_tally (test : Performed → Bool) (made : List Performed) :
    total (tally test) made = made.countP test := sum_map_tally test made

-- ---------------------------------------------------------------------------
-- What a run shows
-- ---------------------------------------------------------------------------

def Label.performed? : Label → Option Performed
  | .performed _ p => some p
  | _ => none

/-- The kind of the datagram that a step receives. -/
def Label.kind? (s : Setup) : Label → Option Kind
  | .received datagram _ _ => some (s.kind datagram)
  | _ => none

/-- The accesses of a run, with what they gave. -/
def performances (labels : List Label) : List Performed := labels.filterMap Label.performed?

/-- The kinds of the datagrams that were received, in order. -/
def receptions (s : Setup) (labels : List Label) : List Kind := labels.filterMap (·.kind? s)

theorem performances_snoc (labels : List Label) (label : Label) :
    performances (labels ++ [label]) = performances labels ++ label.performed?.toList :=
  filterMap_snoc ..

theorem receptions_snoc (s : Setup) (labels : List Label) (label : Label) :
    receptions s (labels ++ [label]) = receptions s labels ++ (label.kind? s).toList :=
  filterMap_snoc ..

-- ---------------------------------------------------------------------------
-- What the state shows
-- ---------------------------------------------------------------------------

/-- What the state of an engine shows of the accesses that were made. -/
structure Gauges (made : List Performed) (e : Engine) : Prop where
  counters : ∀ counter, (e.stats.read counter : ℤ) = total (counting counter) made
  refused : (e.events.rejected : ℤ) = total (tally Performed.refuses) made
  table : (e.neighbors.length : ℤ) + total evicting made = total (tally Performed.enters) made

theorem read_perform (socket : Socket) (e : Engine) (a : Access) (counter : Counter) :
    ((a.perform socket e).2.stats.read counter : ℤ) =
      e.stats.read counter + counting counter ⟨a, (a.perform socket e).1⟩ := by
  cases a with
  | count c n =>
    simp only [Access.perform, counting, Stats.read_add]
    split <;> push_cast <;> rfl
  | upsert id address now =>
    rw [Access.perform]
    split <;> exact (add_zero _).symm
  | recordFailure id =>
    rw [Access.perform]
    split <;> exact (add_zero _).symm
  | _ => exact (add_zero _).symm

theorem rejected_perform (socket : Socket) (e : Engine) (a : Access) :
    ((a.perform socket e).2.events.rejected : ℤ) =
      e.events.rejected + tally Performed.refuses ⟨a, (a.perform socket e).1⟩ := by
  have hoff : Offqueue a → ((a.perform socket e).2.events.rejected : ℤ) =
      e.events.rejected + 0 := by
    intro h
    rw [h.events_eq, add_zero]
  cases a with
  | push event =>
    simp only [Access.perform, Ring.rejected_push]
    cases (e.events.push event).1 <;> rfl
  | pop =>
    simp only [Access.perform, Ring.rejected_pop]
    exact (add_zero _).symm
  | drain =>
    simp only [Access.perform, Ring.drain, Ring.rejected_popMany]
    exact (add_zero _).symm
  | _ => exact hoff trivial

/-- The table grows with the nodes that are entered and shrinks with those that are evicted. -/
theorem length_perform (socket : Socket) (e : Engine) (a : Access) :
    ((a.perform socket e).2.neighbors.length : ℤ) +
        evicting ⟨a, (a.perform socket e).1⟩ =
      e.neighbors.length + tally Performed.enters ⟨a, (a.perform socket e).1⟩ := by
  have hids : ∀ {t : Neighbor.Table}, t.ids = e.neighbors.ids →
      (t.length : ℤ) + 0 = e.neighbors.length + 0 := by
    intro t h
    rw [← t.length_ids, h, Neighbor.Table.length_ids]
  cases a with
  | upsert id address now =>
    cases hupsert : e.neighbors.upsert id address now with
    | error error =>
      simp only [Access.perform, hupsert]
      rfl
    | ok result =>
      obtain ⟨outcome, t⟩ := result
      have htable := Neighbor.Table.ids_upsert hupsert
      simp only [Access.perform, hupsert]
      cases outcome with
      | refreshed => exact hids htable
      | inserted =>
        have hlength := congrArg List.length htable
        simp only [if_true, List.length_append, List.length_singleton,
          Neighbor.Table.length_ids] at hlength
        show (t.length : ℤ) + 0 = e.neighbors.length + 1
        omega
  | touch address now => exact hids (e.neighbors.ids_touch address now)
  | recordFailure id =>
    cases hfailed : e.neighbors.recordFailure id with
    | error error =>
      simp only [Access.perform, hfailed]
      rfl
    | ok result =>
      simp only [Access.perform, hfailed]
      exact hids (Neighbor.Table.ids_recordFailure hfailed)
  | evict now staleAfter =>
    have hparts := List.length_eq_length_filter_add (l := e.neighbors.entries)
      (·.isStale now staleAfter)
    show ((e.neighbors.entries.filter fun n => !n.isStale now staleAfter).length : ℤ) +
      (e.neighbors.entries.filter (·.isStale now staleAfter)).length =
        e.neighbors.entries.length + 0
    omega
  | _ => rfl

theorem Gauges.perform {made : List Performed} {e : Engine} (h : Gauges made e)
    (socket : Socket) (a : Access) :
    Gauges (made ++ [⟨a, (a.perform socket e).1⟩]) (a.perform socket e).2 where
  counters counter := by
    rw [read_perform, h.counters, total_append, total_singleton]
  refused := by
    rw [rejected_perform, h.refused, total_append, total_singleton]
  table := by
    have htable := h.table
    have hlength := length_perform socket e a
    rw [total_append, total_singleton, total_append, total_singleton]
    omega

theorem Gauges.starting {config : EngineConfig} {opening : Opening} {e : Engine}
    (h : start config opening = .ok e) : Gauges [] e := by
  obtain ⟨localAddress, rfl⟩ := start_eq_ok h
  exact ⟨fun counter => by cases counter <;> rfl, rfl, rfl⟩

/-- Along a run the state shows what was done, by induction on the steps. -/
theorem Gauges.run {begin m : Machine} {labels : List Label} (h : Gauges [] begin.engine)
    (run : Run begin labels m) : Gauges (performances labels) m.engine := by
  induction run with
  | nil => exact h
  | @snoc labels m m' label _ step ih =>
    rw [performances_snoc]
    rcases step.engine_cases with ⟨hengine, hlabel⟩ | ⟨thread, a, socket, rfl, hengine⟩
    · have hnone : label.performed? = none := by
        unfold Label.performed?
        split
        · exact absurd rfl (hlabel _ _)
        · rfl
      rw [hengine, hnone]
      exact (List.append_nil (performances labels)).symm ▸ ih
    · rw [hengine]
      exact ih.perform socket a

-- ---------------------------------------------------------------------------
-- An account along a run
-- ---------------------------------------------------------------------------

/-- What the calls in progress still leave on an account. -/
def Owe (weight : Performed → ℤ) : List Pending → ℤ → Prop
  | [], owed => owed = 0
  | c :: rest, owed => ∃ part, c.rest.Weighs weight (fun _ => part) ∧ Owe weight rest (owed - part)

/-- What is owed is what one call owes and what the others do. -/
theorem owe_append_cons {weight : Performed → ℤ} {before after : List Pending} {c : Pending}
    {owed : ℤ} :
    Owe weight (before ++ c :: after) owed ↔
      ∃ part, c.rest.Weighs weight (fun _ => part) ∧
        Owe weight (before ++ after) (owed - part) := by
  induction before generalizing owed with
  | nil => rfl
  | cons first before ih =>
    constructor
    · rintro ⟨part, hfirst, hrest⟩
      obtain ⟨part', hc, hothers⟩ := ih.mp hrest
      exact ⟨part', hc, part, hfirst, by rwa [sub_right_comm]⟩
    · rintro ⟨part', hc, part, hfirst, hothers⟩
      exact ⟨part, hfirst, ih.mpr ⟨part', hc, by rwa [sub_right_comm]⟩⟩

theorem eq_zero_of_finished {weight : Performed → ℤ} {calls : List Pending} {owed : ℤ}
    (h : Owe weight calls owed) (hfinished : ∀ c ∈ calls, c.rest = .done ()) : owed = 0 := by
  induction calls generalizing owed with
  | nil => exact h
  | cons c rest ih =>
    obtain ⟨part, hc, hrest⟩ := h
    rw [hfinished c List.mem_cons_self] at hc
    have hpart : part = 0 := hc
    have hothers := ih hrest fun c' hc' => hfinished c' (List.mem_cons_of_mem _ hc')
    omega

variable {s : Setup} {labels : List Label} {label : Label} {m m' : Machine}

/-- What a run has put on an account beyond what is due for the datagrams it received. -/
def standing (account : Account s) (labels : List Label) : ℤ :=
  total account.weight (performances labels) - ((receptions s labels).map account.due).sum

theorem standing_snoc (account : Account s) (labels : List Label) (label : Label) :
    standing account (labels ++ [label]) = standing account labels +
      label.performed?.elim 0 account.weight - (label.kind? s).elim 0 account.due := by
  rw [standing, performances_snoc, receptions_snoc, total_append, List.map_append,
    List.sum_append, standing]
  cases label.performed? <;> cases label.kind? s <;> simp [total] <;> omega

theorem standing_of_quiet {account : Account s} (hperformed : label.performed? = none)
    (hkind : label.kind? s = none) :
    standing account (labels ++ [label]) = standing account labels := by
  rw [standing_snoc, hperformed, hkind]
  exact (sub_zero _).trans (add_zero _)

/-- What a run has put on an account beyond what is due, the routines under way take off. -/
def Balanced (account : Account s) (labels : List Label) (m : Machine) : Prop :=
  ∃ hand owed, m.network.Weighs account.weight (fun _ => hand) ∧
    Owe account.weight m.calls owed ∧ standing account labels + hand + owed = 0

/-- An idle network loop takes nothing off. -/
theorem Balanced.idle {account : Account s} (h : Balanced account labels m)
    (hidle : m.network = .done ()) :
    ∃ owed, Owe account.weight m.calls owed ∧ standing account labels + owed = 0 := by
  obtain ⟨hand, owed, hnetwork, hcalls, hbalance⟩ := h
  rw [hidle] at hnetwork
  have hhand : hand = 0 := hnetwork
  exact ⟨owed, hcalls, by omega⟩

/-- Every step keeps an account balanced: an access moves its weight from what is left to do to
the account, and a routine that begins leaves nothing or what is due. -/
theorem Balanced.step {account : Account s} (h : Balanced account labels m)
    (hsetup : m.engine.setup = s) (hstep : Step m label m') :
    Balanced account (labels ++ [label]) m' := by
  cases hstep with
  | housekeeping due now stage running idle =>
    obtain ⟨owed, hcalls, hbalance⟩ := h.idle idle
    rw [hsetup]
    refine ⟨0, owed, account.weighs_upkeep due now, hcalls, ?_⟩
    rwa [standing_of_quiet rfl rfl, add_zero]
  | receive datagram origin now stage idle =>
    obtain ⟨owed, hcalls, hbalance⟩ := h.idle idle
    have hstanding := standing_snoc account labels (.received datagram origin now)
    rw [hsetup]
    refine ⟨_, owed, account.weighs_handle datagram origin now, hcalls, ?_⟩
    simp only [Label.performed?, Label.kind?, Option.elim_none, Option.elim_some] at hstanding
    omega
  | lapse stage idle =>
    obtain ⟨hand, owed, hnetwork, hcalls, hbalance⟩ := h
    exact ⟨hand, owed, hnetwork, hcalls, by rwa [standing_of_quiet rfl rfl]⟩
  | finish stage stopped idle =>
    obtain ⟨hand, owed, hnetwork, hcalls, hbalance⟩ := h
    exact ⟨hand, owed, hnetwork, hcalls, by rwa [standing_of_quiet rfl rfl]⟩
  | call c =>
    obtain ⟨hand, owed, hnetwork, hcalls, hbalance⟩ := h
    have hbegun := account.weighs_begun hsetup c
    refine ⟨hand, owed, hnetwork, ?_, by rwa [standing_of_quiet rfl rfl]⟩
    refine owe_append_cons.mpr ⟨0, hbegun, ?_⟩
    rwa [List.append_nil, sub_zero]
  | leave hpending join =>
    obtain ⟨hand, owed, hnetwork, hcalls, hbalance⟩ := h
    rw [hpending] at hcalls
    obtain ⟨part, hdone, hothers⟩ := owe_append_cons.mp hcalls
    have hpart : part = 0 := hdone
    rw [hpart, sub_zero] at hothers
    exact ⟨hand, owed, hnetwork, hothers, by rwa [standing_of_quiet rfl rfl]⟩
  | network socket work =>
    obtain ⟨hand, owed, hnetwork, hcalls, hbalance⟩ := h
    rw [work] at hnetwork
    refine ⟨_, owed, hnetwork _, hcalls, ?_⟩
    rw [standing_snoc]
    simp only [Label.performed?, Label.kind?, Option.elim_none, Option.elim_some]
    omega
  | @application before after c a next socket hpending =>
    obtain ⟨hand, owed, hnetwork, hcalls, hbalance⟩ := h
    rw [hpending] at hcalls
    obtain ⟨part, hcall, hothers⟩ := owe_append_cons.mp hcalls
    refine ⟨hand, owed - account.weight ⟨a, (a.perform socket m.engine).1⟩, hnetwork,
      owe_append_cons.mpr ⟨_, hcall _, by rwa [sub_sub_sub_cancel_right]⟩, ?_⟩
    rw [standing_snoc]
    simp only [Label.performed?, Label.kind?, Option.elim_none, Option.elim_some]
    omega

theorem Balanced.run {e : Engine} (account : Account e.setup)
    (run : Run (.starting e) labels m) : Balanced account labels m := by
  suffices m.engine.setup = e.setup ∧ Balanced account labels m from this.2
  induction run with
  | nil => exact ⟨rfl, 0, 0, rfl, rfl, rfl⟩
  | snoc _ step ih => exact ⟨step.setup_eq.trans ih.1, ih.2.step ih.1 step⟩

/-- When no routine is under way, an account holds what is due for the datagrams. -/
theorem Balanced.settled {account : Account s} (h : Balanced account labels m)
    (hidle : m.network = .done ()) (hfinished : ∀ c ∈ m.calls, c.rest = .done ()) :
    total account.weight (performances labels) =
      ((receptions s labels).map account.due).sum := by
  obtain ⟨owed, hcalls, hbalance⟩ := h.idle hidle
  have howed := eq_zero_of_finished hcalls hfinished
  rw [standing] at hbalance
  omega

-- ---------------------------------------------------------------------------
-- The accounts
-- ---------------------------------------------------------------------------

/-- Attempts to send, less those that are counted as sent or as failed. -/
def sendAccount (s : Setup) : Account s where
  weight p := tally (·.send?.isSome) p - counting .hellosSent p - counting .formulasSent p -
    counting .acksSent p - counting .sendFailures p
  price _ := 1
  due _ := 0
  sent _ _ := rfl
  failed _ _ := rfl
  greetings n := by simp [tally, counting, Performed.send?]
  formulas n f := by simp [tally, counting, Performed.send?]
  acks _ := rfl
  accepted _ := rfl
  refused _ := rfl
  evicted _ _ _ := rfl
  received k := by cases k <;> rfl
  unbooked a h answer := by cases a <;> first | rfl | exact h.elim

/-- Acknowledgements that left, less those that are counted. -/
def ackAccount (s : Setup) : Account s where
  weight p := tally (·.isAck s.hash true) p - counting .acksSent p
  price frame := if (ackStatus? s.hash frame).isSome then 1 else 0
  due _ := 0
  sent frame target := by simp [tally, counting, Performed.isAck]
  failed frame target := by simp [tally, counting, Performed.isAck]
  greetings n := by simp [tally, counting, Performed.isAck, ackStatus?_greeting]
  formulas n f := by simp [tally, counting, Performed.isAck, ackStatus?_migration]
  acks status := by simp [tally, counting, Performed.isAck, Setup.encode, ackStatus?_ack]
  accepted _ := rfl
  refused _ := rfl
  evicted _ _ _ := rfl
  received k := by cases k <;> rfl
  unbooked a h answer := by cases a <;> first | rfl | exact h.elim

/-- Events that the queue refused, less those that are counted. -/
def refusalAccount (s : Setup) : Account s where
  weight p := tally Performed.refuses p - counting .eventsRejected p
  price _ := 0
  due _ := 0
  sent _ _ := rfl
  failed _ _ := rfl
  greetings n := by simp [tally, counting, Performed.refuses]
  formulas n f := by simp [tally, counting, Performed.refuses]
  acks _ := rfl
  accepted _ := rfl
  refused _ := rfl
  evicted _ _ _ := rfl
  received k := by cases k <;> rfl
  unbooked a h answer := by cases a <;> first | rfl | exact h.elim

/-- Neighbors that were evicted, less those that are counted. -/
def evictionAccount (s : Setup) : Account s where
  weight p := evicting p - counting .neighborsEvicted p
  price _ := 0
  due _ := 0
  sent _ _ := rfl
  failed _ _ := rfl
  greetings n := by simp [evicting, counting]
  formulas n f := by simp [evicting, counting]
  acks _ := rfl
  accepted _ := rfl
  refused _ := rfl
  evicted _ _ gone := by simp [evicting, counting]
  received k := by cases k <;> rfl
  unbooked a h answer := by cases a <;> first | rfl | exact h.elim

/-- Datagrams of the kinds that a counter is for. Due is one for each of them. -/
def receptionAccount (s : Setup) (counter : Counter) (h : counter = .datagramsReceived ∨
    counter = .datagramsDropped ∨ counter = .acksReceived) : Account s where
  weight := counting counter
  price _ := 0
  due := tally fun k => counter = .datagramsReceived || k.counter? = some counter
  sent _ _ := rfl
  failed _ _ := by rcases h with rfl | rfl | rfl <;> rfl
  greetings n := by rcases h with rfl | rfl | rfl <;> simp [counting]
  formulas n f := by rcases h with rfl | rfl | rfl <;> simp [counting]
  acks _ := by rcases h with rfl | rfl | rfl <;> rfl
  accepted _ := rfl
  refused _ := by rcases h with rfl | rfl | rfl <;> rfl
  evicted _ _ gone := by rcases h with rfl | rfl | rfl <;> rfl
  received k := by rcases h with rfl | rfl | rfl <;> cases k <;> rfl
  unbooked a h answer := by cases a <;> first | rfl | exact h.elim

-- ---------------------------------------------------------------------------
-- Datagrams, events and acknowledgements
-- ---------------------------------------------------------------------------

/-- The kind of the datagrams that an event comes from. -/
def Kind.ofEvent : Event → Kind
  | .hello _ _ => .greeting
  | .formula _ _ _ => .migration

/-- The datagrams that bring an event. -/
def Kind.bringsEvent : Kind → Bool
  | .greeting | .migration => true
  | .rejected | .own | .acknowledgement => false

theorem map_dueEvent (s : Setup) (datagram : List UInt8) (origin : Address) :
    (dueEvent s datagram origin).toList.map Kind.ofEvent =
      [s.kind datagram].filter Kind.bringsEvent := by
  rw [dueEvent, Setup.kind]
  cases Frame.decode s.hash datagram with
  | error _ => rfl
  | ok m =>
    cases m with
    | hello id =>
      by_cases hown : id = s.nodeId
      · simp [hown, Message.sender?, Kind.bringsEvent]
      · simp only [if_neg hown, Message.sender?, Option.some.injEq]
        rfl
    | migrate id gene fitness =>
      by_cases hown : id = s.nodeId
      · simp [hown, Message.sender?, Kind.bringsEvent]
      · simp only [if_neg hown, Message.sender?, Option.some.injEq]
        rfl
    | ack status => rfl

/-- There is an arrival for every datagram that brings an event. -/
theorem map_arrivals (s : Setup) (labels : List Label) :
    (arrivals s labels).map Kind.ofEvent = (receptions s labels).filter Kind.bringsEvent := by
  induction labels using List.reverseRecOn with
  | nil => rfl
  | append_singleton labels label ih =>
    rw [arrivals_snoc, receptions_snoc, List.map_append, List.filter_append, ih]
    congr 1
    cases label with
    | received datagram origin now => exact map_dueEvent s datagram origin
    | _ => rfl

theorem count_events (kinds : List Kind) :
    (kinds.filter Kind.bringsEvent).length = kinds.count .greeting + kinds.count .migration := by
  induction kinds with
  | nil => rfl
  | cons k rest ih =>
    cases k with
    | greeting =>
      rw [List.filter_cons_of_pos rfl, List.length_cons, ih, List.count_cons_self,
        List.count_cons_of_ne (by decide)]
      omega
    | migration =>
      rw [List.filter_cons_of_pos rfl, List.length_cons, ih, List.count_cons_self,
        List.count_cons_of_ne (by decide)]
      omega
    | _ =>
      rw [List.filter_cons_of_neg (by decide), ih, List.count_cons_of_ne (by decide),
        List.count_cons_of_ne (by decide)]

/-- The queue accepts an event that is brought to it, or refuses it. -/
theorem length_pushes (labels : List Label) :
    (pushes labels).length =
      (accepted labels).length + (performances labels).countP Performed.refuses := by
  induction labels using List.reverseRecOn with
  | nil => rfl
  | append_singleton labels label ih =>
    have hlabel : label.push?.toList.length =
        (accepted [label]).length + label.performed?.toList.countP Performed.refuses := by
      cases label with
      | performed thread p =>
        obtain ⟨a, answer⟩ := p
        cases a with
        | push event => cases answer <;> rfl
        | _ => rfl
      | _ => rfl
    rw [pushes_snoc, accepted_append, performances_snoc, List.length_append, List.length_append,
      List.countP_append]
    omega

/-- An acknowledgement leaves or fails. -/
theorem length_acks (hash : KeyedHash) (labels : List Label) :
    (acks hash labels).length = (performances labels).countP (·.isAck hash true) +
      (performances labels).countP (·.isAck hash false) := by
  induction labels using List.reverseRecOn with
  | nil => rfl
  | append_singleton labels label ih =>
    have hlabel : (label.ack? hash).toList.length =
        label.performed?.toList.countP (·.isAck hash true) +
          label.performed?.toList.countP (·.isAck hash false) := by
      cases label with
      | performed thread p =>
        obtain ⟨a, answer⟩ := p
        cases a with
        | send frame target =>
          cases hstatus : ackStatus? hash frame <;> cases answer <;>
            simp [Label.ack?, Label.performed?, Performed.isAck, hstatus]
        | _ => rfl
      | _ => rfl
    rw [acks_snoc, performances_snoc, List.length_append, List.countP_append, List.countP_append]
    omega

/-- An acknowledgement is called for by every event that a migration brings. -/
theorem length_filterMap_acknowledgement (brought : List (Event × Bool)) :
    (brought.filterMap acknowledgement).length =
      ((brought.map Prod.fst).map Kind.ofEvent).count .migration := by
  induction brought with
  | nil => rfl
  | cons push rest ih =>
    obtain ⟨event, accepted⟩ := push
    cases event with
    | hello id origin =>
      rw [List.map_cons, List.map_cons, List.count_cons_of_ne (by exact nofun), ← ih]
      rfl
    | formula id origin f =>
      rw [List.map_cons, List.map_cons, Kind.ofEvent, List.count_cons_self, ← ih]
      cases accepted <;> rfl

/-- With nothing in hand, the network loop has brought an event to the queue for every
datagram that brings one, and has tried to acknowledge every migration. -/
theorem Accounts.counts {s : Setup} {labels : List Label} (h : Accounts s labels .idle) :
    (pushes labels).length =
        (receptions s labels).count .greeting + (receptions s labels).count .migration ∧
      (acks s.hash labels).length = (receptions s labels).count .migration := by
  have harrived : arrivals s labels = (pushes labels).map Prod.fst :=
    h.arrived.trans (List.append_nil _)
  have hacknowledged : (pushes labels).filterMap acknowledgement = acks s.hash labels :=
    h.acknowledged.trans (List.append_nil _)
  have hkinds := map_arrivals s labels
  rw [harrived] at hkinds
  constructor
  · rw [← count_events, ← hkinds, List.length_map, List.length_map]
  · rw [← hacknowledged, length_filterMap_acknowledgement, hkinds, List.count_filter rfl]

-- ---------------------------------------------------------------------------
-- Conservation
-- ---------------------------------------------------------------------------

/-- The five kinds are all there are. -/
theorem length_kinds (kinds : List Kind) :
    kinds.length = kinds.count .rejected + kinds.count .own + kinds.count .greeting +
      kinds.count .migration + kinds.count .acknowledgement := by
  induction kinds with
  | nil => rfl
  | cons k rest ih => cases k <;> simp [ih] <;> omega

/-- Every datagram is counted as received, and as rejected or as an acknowledgement if it is
one. -/
theorem receptions_counted {e : Engine} {labels : List Label} {m : Machine}
    (gauges : Gauges (performances labels) m.engine) (run : Run (.starting e) labels m)
    (between : m.network = .done ()) (finished : ∀ c ∈ m.calls, c.rest = .done ()) :
    m.engine.stats.datagramsReceived = (receptions e.setup labels).length ∧
      m.engine.stats.datagramsDropped = (receptions e.setup labels).count .rejected ∧
      m.engine.stats.acksReceived = (receptions e.setup labels).count .acknowledgement := by
  have hcount : ∀ counter, counter = .datagramsReceived ∨ counter = .datagramsDropped ∨
      counter = .acksReceived → m.engine.stats.read counter = (receptions e.setup labels).countP
        fun k => counter = .datagramsReceived || k.counter? = some counter := by
    intro counter h
    have hsettled := (Balanced.run (receptionAccount e.setup counter h) run).settled between
      finished
    have hgauge := gauges.counters counter
    rw [show total (counting counter) (performances labels) = _ from hsettled] at hgauge
    exact Int.natCast_inj.mp (hgauge.trans (sum_map_tally _ _))
  refine ⟨?_, ?_, ?_⟩
  · refine (hcount .datagramsReceived (.inl rfl)).trans ?_
    exact List.countP_eq_length.mpr fun _ _ => rfl
  · refine (hcount .datagramsDropped (.inr (.inl rfl))).trans ?_
    exact List.countP_congr fun k _ => by cases k <;> decide
  · refine (hcount .acksReceived (.inr (.inr rfl))).trans ?_
    exact List.countP_congr fun k _ => by cases k <;> decide

/-- **The counters of an engine are conserved.** In every run of an engine, with the steps of its
threads in any order and with sends that succeed or fail, whenever no routine is under way:

* every datagram that was received was dropped, was an acknowledgement, carried the identity
  of the engine, or was a greeting or a migration of another node;
* the events that those greetings and migrations brought were taken, are queued, or were
  refused; and as many were refused as the queue says;
* every attempt to send was counted as a greeting, a formula or an acknowledgement that left,
  or as a failure;
* every migration of another node was acknowledged, or that failed;
* every node that was entered into the table is in it, or was evicted. -/
theorem counters_are_conserved (config : EngineConfig) (opening : Opening) (e : Engine)
    (labels : List Label) (m : Machine) (started : start config opening = .ok e)
    (run : Run (.starting e) labels m) (between : m.network = .done ())
    (finished : ∀ c ∈ m.calls, c.rest = .done ()) :
    let stats := m.engine.stats
    let kinds := receptions e.setup labels
    let made := performances labels
    (stats.datagramsReceived = stats.datagramsDropped + stats.acksReceived +
        kinds.count .own + kinds.count .greeting + kinds.count .migration ∧
      stats.datagramsReceived = kinds.length ∧ stats.datagramsDropped = kinds.count .rejected) ∧
    (kinds.count .greeting + kinds.count .migration =
        (taken labels).length + m.engine.events.length + stats.eventsRejected ∧
      stats.eventsRejected = m.engine.events.rejected) ∧
    stats.hellosSent + stats.formulasSent + stats.acksSent + stats.sendFailures =
      made.countP (·.send?.isSome) ∧
    stats.acksSent + made.countP (·.isAck e.setup.hash false) = kinds.count .migration ∧
    stats.neighborsEvicted + m.engine.neighbors.length = made.countP Performed.enters := by
  dsimp only
  have gauges : Gauges (performances labels) m.engine := (Gauges.starting started).run run
  have hfaithful : Faithful e.setup labels m := (Faithful.starting started).run run
  have hsettled : ∀ account : Account e.setup, account.due = (fun _ => 0) →
      total account.weight (performances labels) = 0 := by
    intro account hdue
    rw [(Balanced.run account run).settled between finished, hdue]
    simp
  have hsends := hsettled (sendAccount e.setup) rfl
  have hacks := hsettled (ackAccount e.setup) rfl
  have hrefusals := hsettled (refusalAccount e.setup) rfl
  have hevictions := hsettled (evictionAccount e.setup) rfl
  simp only [sendAccount, ackAccount, refusalAccount, evictionAccount, total_sub, total_tally,
    ← gauges.counters, Stats.read] at hsends hacks hrefusals hevictions
  have hrefused := gauges.refused
  have htable := gauges.table
  rw [total_tally] at hrefused htable
  obtain ⟨hbrought, hacknowledged⟩ := (hfaithful.idle between).counts
  obtain ⟨hreceived, hdropped, hanswered⟩ := receptions_counted gauges run between finished
  have hkinds := length_kinds (receptions e.setup labels)
  have hpushes := length_pushes labels
  have hattempts := length_acks e.setup.hash labels
  have hqueue : (accepted labels).length = (taken labels).length + m.engine.events.length := by
    obtain ⟨waiting, hrepresents, haccepted⟩ := hfaithful.queue
    rw [haccepted, List.length_append, hrepresents.length_eq]
  refine ⟨⟨?_, hreceived, hdropped⟩, ⟨?_, ?_⟩, ?_, ?_, ?_⟩ <;> omega

/-- A formula arrives from node 2, and the acknowledgement fails. -/
theorem counters_are_conserved_of_lost_acknowledgement :
    let e := fresh (.standard 1 0 ⟨[]⟩) (.anyHost 7)
    start (.standard 1 0 ⟨[]⟩) ⟨.ok (), .ok (), .ok (), .ok (.anyHost 7), .ok ()⟩ = .ok e ∧
    ∃ labels m, Run (.starting e) labels m ∧ m.network = .done () ∧ m.calls = [] ∧
      m.engine.stats = ⟨1, 0, 0, 0, 0, 0, 1, 0, 0⟩ ∧
      receptions e.setup labels = [.migration] ∧
      (performances labels).countP (·.send?.isSome) = 1 ∧
      (performances labels).countP (·.isAck e.setup.hash false) = 1 := by
  intro e
  let formula : Formula := ⟨.empty, .one, .zero⟩
  have started : start (.standard 1 0 ⟨[]⟩)
      ⟨.ok (), .ok (), .ok (), .ok (.anyHost 7), .ok ()⟩ = .ok e := rfl
  have hvalid : (Message.migration 2 formula).IsValid := show Binary64.Within _ _ _ by decide
  have hdecode : Frame.decode e.setup.hash (e.setup.encode (.migration 2 formula)) =
      .ok (.migration 2 formula) := Frame.decode_encode _ hvalid
  have hforeign : (Message.migration 2 formula).sender? ≠ some e.setup.nodeId := by decide
  have hkind : e.setup.kind (e.setup.encode (.migration 2 formula)) = .migration := by
    rw [Setup.kind, hdecode]
    exact if_neg hforeign
  let socket : Socket := fun _ _ => false
  have h1 : Run (.starting e) _ _ := .snoc .nil (.housekeeping false 0 rfl rfl rfl)
  have h2 := (h1.snoc (.network socket rfl)).snoc (.network socket rfl)
  have h3 := h2.snoc (.receive (e.setup.encode (.migration 2 formula)) (.anyHost 9) 0 rfl rfl)
  have h4 := h3.snoc (.network socket (handle_of_decode hdecode hforeign (.anyHost 9) 0))
  have h5 := (h4.snoc (.network socket rfl)).snoc (.network socket rfl)
  have h6 := (h5.snoc (.network socket rfl)).snoc (.network socket rfl)
  have h7 := h6.snoc (.network socket rfl)
  obtain ⟨-, -, hsends, hacks, -⟩ :=
    counters_are_conserved _ _ e _ _ started h7 rfl (List.forall_mem_nil _)
  have hkinds : [e.setup.kind (e.setup.encode (.migration 2 formula))] = [.migration] :=
    congrArg (· :: []) hkind
  have hlost : ∀ {sent lost : Nat} {kinds : List Kind}, sent + lost = kinds.count .migration →
      sent = 0 → kinds = [.migration] → lost = 1 := by
    rintro sent lost _ hsum rfl rfl
    exact (Nat.zero_add lost).symm.trans hsum
  exact ⟨started, _, _, h7, rfl, rfl, rfl, hkinds, hsends.symm, hlost hacks rfl hkinds⟩

end Engine

end AffineSwarm
