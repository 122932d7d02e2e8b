import AffineSwarm.Engine.Network
import AffineSwarm.Proofs.Engine.Replies
import AffineSwarm.Proofs.Engine.Steps
import Mathlib.Algebra.BigOperators.Fin
import Mathlib.Data.Fintype.Basic

/-!
# No message storm

Greetings cause greetings and migrations cause acknowledgements, at several engines at once.
Left to themselves, engines that only handle datagrams fall silent all the same, whatever
keys, identities and tables they have.

A datagram under way weighs two if some engine reads it as a migration, and one otherwise; no
frame that answers another weighs two (`weightOf_encode_le_one`). The measure is what all
datagrams under way weigh, the free places of all tables, and the budgets of what the engines
have left to do. To deliver a datagram lowers it, and no other step raises it (`Funded.step`):
who answers a greeting has just filled a place.

## Results

* `Frugal.step`, `Frugal.receive` — the measure over a step of one engine.
* `Funded.step` — the measure over a step of a network.
* `no_message_storm` — the bound on the datagrams that are handled.
-/

namespace AffineSwarm

namespace Neighbor.Table

/-- The nodes that a table still has room for. -/
def free (t : Table) : Nat := t.capacity - t.length

end Neighbor.Table

namespace Engine

open Routine (all_pure all_of)

-- ---------------------------------------------------------------------------
-- What may happen
-- ---------------------------------------------------------------------------

/-- The steps by which an engine neither begins to send of itself nor evicts. -/
def Label.IsCalm : Label → Prop
  | .housekeeping due _ => due = false
  | .called call => call.sends = false
  | .performed _ ⟨.evict _ _, evicted⟩ => evicted = []
  | _ => True

/-- Datagrams are delivered or lost, and engines do no more than handle them. -/
def Occurrence.IsCalm {ι : Type} : Occurrence ι → Prop
  | .acted _ label => label.IsCalm
  | .delivered _ _ _ => True
  | .lost _ => True

def Occurrence.isDelivery {ι : Type} : Occurrence ι → Bool
  | .delivered _ _ _ => true
  | _ => false

/-- The number of datagrams that were handled. -/
def deliveries {ι : Type} (occurrences : List (Occurrence ι)) : Nat :=
  occurrences.countP Occurrence.isDelivery

/-- An engine that has nothing in hand. -/
def Machine.AtRest (m : Machine) : Prop :=
  m.network = .done () ∧ ∀ c ∈ m.calls, c.rest = .done ()

-- ---------------------------------------------------------------------------
-- One engine
-- ---------------------------------------------------------------------------

variable {weight : List UInt8 → Nat} {m m' : Machine} {label : Label} {budget : Nat}

/-- What datagrams weigh. -/
def weigh (weight : List UInt8 → Nat) (flight : List Datagram) : Nat :=
  (flight.map fun d => weight d.bytes).sum

theorem weigh_append (flight more : List Datagram) :
    weigh weight (flight ++ more) = weigh weight flight + weigh weight more := by
  rw [weigh, List.map_append, List.sum_append]
  rfl

theorem weigh_cons (d : Datagram) (flight : List Datagram) :
    weigh weight (d :: flight) = weight d.bytes + weigh weight flight := List.sum_cons

/-- A frame that leaves was paid for. -/
theorem weigh_sent_le (thread : Thread) (p : Performed) (origin : Address) :
    weigh weight ((Label.performed thread p).sent? origin).toList ≤ cost weight [p] := by
  obtain ⟨a, answer⟩ := p
  cases a with
  | send frame target =>
    cases answer with
    | true => exact Nat.le_refl _
    | false => exact Nat.zero_le _
  | _ => exact Nat.zero_le _

/-- A node that is entered fills a free place. -/
theorem free_perform (socket : Socket) (e : Engine) (a : Access) (thread : Thread)
    (hcalm : (Label.performed thread ⟨a, (a.perform socket e).1⟩).IsCalm) :
    (a.perform socket e).2.neighbors.free + earned [⟨a, (a.perform socket e).1⟩] ≤
      e.neighbors.free := by
  have hsame : ∀ t : Neighbor.Table, t.capacity = e.neighbors.capacity →
      t.ids = e.neighbors.ids → t.free = e.neighbors.free := by
    intro t hcapacity hids
    rw [Neighbor.Table.free, ← t.length_ids, hids, hcapacity, Neighbor.Table.length_ids]
    rfl
  cases a with
  | upsert id address now =>
    rw [Access.perform]
    rcases e.neighbors.upsert_cases id address now with ⟨-, hok⟩ | ⟨-, -, hfull⟩ | ⟨-, hroom, hok⟩
    · rw [hok]
      exact Nat.le_of_eq (hsame _ rfl (Neighbor.Table.ids_upsert hok))
    · rw [hfull]
      exact Nat.le_refl _
    · rw [hok]
      have hearned : earned [⟨.upsert id address now, .ok .inserted⟩] = 1 := rfl
      simp only [hearned, Neighbor.Table.free, Neighbor.Table.length, List.length_append,
        List.length_singleton] at hroom ⊢
      omega
  | touch address now => exact Nat.le_of_eq (hsame _ rfl (e.neighbors.ids_touch address now))
  | recordFailure id =>
    obtain ⟨hcapacity, hids⟩ := perform_ids socket e (.recordFailure id)
    rcases hids with hids | ⟨_, _, _, hother, -⟩ | ⟨_, _, hother, -⟩
    · exact Nat.le_of_eq (hsame _ hcapacity hids)
    · cases hother
    · cases hother
  | evict now staleAfter =>
    rw [Access.perform, Neighbor.Table.evictStale_eq_self hcalm]
    exact Nat.le_refl _
  | _ => exact Nat.le_refl _

/-- The network loop keeps to a budget, and no call sends. -/
structure Frugal (weight : List UInt8 → Nat) (m : Machine) (budget : Nat) : Prop where
  network : m.network.Costs weight budget
  calls : ∀ c ∈ m.calls, c.rest.All Mute

theorem Machine.AtRest.frugal (h : m.AtRest) : Frugal weight m 0 := by
  refine ⟨?_, fun c hc => ?_⟩
  · rw [h.1]
    exact Routine.All.costs trivial
  · rw [h.2 c hc]
    trivial

theorem mute_begun (e : Engine) {c : Call} (h : c.sends = false) : (c.begun e).All Mute := by
  rw [Call.begun, h]
  cases c with
  | nextEvent => exact .bind (all_of trivial) fun _ => all_pure _
  | drainEvents => exact .bind (all_of trivial) fun _ => all_pure _
  | stop => exact all_of trivial
  | _ => cases h

/-- A step of an engine of its own spends what it takes from the budget and from the table. -/
theorem Frugal.step (h : Frugal weight m budget) (hstep : Step m label m')
    (hown : ∀ datagram origin now, label ≠ .received datagram origin now)
    (hcalm : label.IsCalm) (origin : Address) :
    ∃ budget', Frugal weight m' budget' ∧
      weigh weight (label.sent? origin).toList +
        (m'.engine.neighbors.free + budget') ≤ m.engine.neighbors.free + budget := by
  cases hstep with
  | housekeeping due now stage running idle =>
    cases hcalm
    refine ⟨0, ⟨((neutral_evictStale _ _).mono fun _ => Neutral.mute).costs, h.calls⟩, ?_⟩
    exact Nat.le_trans (Nat.le_of_eq (Nat.zero_add _)) (Nat.le_add_right _ _)
  | receive datagram origin now stage idle => exact absurd rfl (hown _ _ _)
  | lapse stage idle =>
    exact ⟨budget, ⟨h.network, h.calls⟩, Nat.le_of_eq (Nat.zero_add _)⟩
  | finish stage stopped idle =>
    exact ⟨budget, ⟨h.network, h.calls⟩, Nat.le_of_eq (Nat.zero_add _)⟩
  | call c =>
    refine ⟨budget, ⟨h.network, fun c' hc' => ?_⟩, Nat.le_of_eq (Nat.zero_add _)⟩
    rcases List.mem_append.mp hc' with hold | hnew
    · exact h.calls c' hold
    · cases List.mem_singleton.mp hnew
      exact mute_begun m.engine hcalm
  | leave hpending join =>
    exact ⟨budget, ⟨h.network, forall_mem_remove (hpending ▸ h.calls)⟩,
      Nat.le_of_eq (Nat.zero_add _)⟩
  | @network a next socket work =>
    have hcosts := h.network
    rw [work] at hcosts
    obtain ⟨hpaid, hleft⟩ := hcosts.access (a.perform socket m.engine).1
    refine ⟨_, ⟨hleft, h.calls⟩, ?_⟩
    have hsent : weigh weight _ ≤ _ := weigh_sent_le .network
      ⟨a, (a.perform socket m.engine).1⟩ origin
    have hfree := free_perform socket m.engine a _ hcalm
    dsimp only
    omega
  | @application before after c a next socket hpending =>
    have hmute := h.calls _ (hpending ▸ List.mem_append_cons_self)
    refine ⟨budget, ⟨h.network, forall_mem_replace (hpending ▸ h.calls) (hmute.2 _)⟩, ?_⟩
    have hsent : weigh weight _ ≤ _ := weigh_sent_le (.application c)
      ⟨a, (a.perform socket m.engine).1⟩ origin
    have hfree := free_perform socket m.engine a _ hcalm
    have hcost : cost weight [⟨a, (a.perform socket m.engine).1⟩] = 0 := cost_of_mute hmute.1
    dsimp only
    omega

/-- The budget to handle a datagram is less than what the datagram weighed. -/
theorem Frugal.receive (h : Frugal weight m budget) {bytes : List UInt8} {origin : Address}
    {now : Nat} (hstep : Step m (.received bytes origin now) m')
    (hgreeting : weight m.engine.setup.greeting ≤ 1)
    (hack : ∀ status, weight (m.engine.setup.encode (.ack status)) ≤ 1)
    (hweight : (if reads m.engine.setup.hash Frame.migrateKind bytes then 1 else 0) <
      weight bytes) :
    ∃ budget', Frugal weight m' budget' ∧
      (m'.engine.neighbors.free + budget') + 1 ≤
        weight bytes + (m.engine.neighbors.free + budget) := by
  cases hstep with
  | receive _ _ _ stage idle =>
    refine ⟨_, ⟨costs_handle hgreeting hack bytes origin now, h.calls⟩, ?_⟩
    dsimp only
    omega

-- ---------------------------------------------------------------------------
-- Weights
-- ---------------------------------------------------------------------------

variable {ι : Type} [Fintype ι] {hashes : ι → KeyedHash}

/-- A datagram weighs two if some engine reads it as a migration, and one otherwise. -/
def weightOf (hashes : ι → KeyedHash) (bytes : List UInt8) : Nat :=
  if ∃ i, reads (hashes i) Frame.migrateKind bytes then 2 else 1

/-- A datagram that is read as a message of a kind is as long as messages of that kind. -/
theorem length_of_reads {hash : KeyedHash} {kind : UInt8} {bytes : List UInt8}
    (h : reads hash kind bytes = true) :
    ∃ m, Frame.kind m = kind ∧ bytes.length = Frame.length m := by
  rw [reads] at h
  split at h
  · rename_i m hdecode
    refine ⟨m, beq_iff_eq.mp h, ?_⟩
    rw [(Frame.decode_eq_ok_iff.mp hdecode).1, Frame.length_encode]
  · cases h

theorem length_of_reads_migration {hash : KeyedHash} {bytes : List UInt8}
    (h : reads hash Frame.migrateKind bytes = true) : bytes.length = Frame.migrateLength := by
  obtain ⟨m, hkind, hlength⟩ := length_of_reads h
  cases m with
  | migrate id gene fitness => exact hlength
  | _ => cases hkind

/-- A frame that is not as long as a migration weighs one, under whatever key it is read. -/
theorem weightOf_encode_le_one (hash : KeyedHash) {m : Message}
    (h : Frame.length m ≠ Frame.migrateLength) : weightOf hashes (Frame.encode hash m) ≤ 1 := by
  have hnone : ¬ ∃ i, reads (hashes i) Frame.migrateKind (Frame.encode hash m) = true := by
    rintro ⟨i, hreads⟩
    exact h (Frame.length_encode m ▸ length_of_reads_migration hreads)
  rw [weightOf, if_neg hnone]

theorem reads_lt_weightOf (i : ι) (bytes : List UInt8) :
    (if reads (hashes i) Frame.migrateKind bytes then 1 else 0) < weightOf hashes bytes := by
  rw [weightOf]
  split
  · rename_i hreads
    rw [if_pos ⟨i, hreads⟩]
    exact Nat.lt_succ_self _
  · split <;> exact Nat.succ_pos _

-- ---------------------------------------------------------------------------
-- The network
-- ---------------------------------------------------------------------------

variable [DecidableEq ι] {address : ι → Address} {w w' : Network ι} {o : Occurrence ι}
  {occurrences : List (Occurrence ι)} {bound : Nat} {budgets : ι → Nat}

/-- What a sum over all engines becomes when one summand changes. -/
theorem sum_set (f : ι → Nat) (i : ι) (x : Nat) :
    (∑ j, if j = i then x else f j) + f i = (∑ j, f j) + x := by
  have hrest : ∑ j ∈ Finset.univ.erase i, (if j = i then x else f j) =
      ∑ j ∈ Finset.univ.erase i, f j :=
    Finset.sum_congr rfl fun j hj => if_neg (Finset.ne_of_mem_erase hj)
  rw [← Finset.add_sum_erase _ _ (Finset.mem_univ i), ← Finset.add_sum_erase _ f
    (Finset.mem_univ i), hrest, if_pos rfl]
  omega

omit [Fintype ι] [DecidableEq ι] in
theorem deliveries_snoc (occurrences : List (Occurrence ι)) (o : Occurrence ι) :
    deliveries (occurrences ++ [o]) = deliveries occurrences + deliveries [o] :=
  List.countP_append

/-- The datagrams that were handled and the measure are within a bound. -/
structure Funded (hashes : ι → KeyedHash) (bound : Nat) (occurrences : List (Occurrence ι))
    (w : Network ι) (budgets : ι → Nat) : Prop where
  hash_eq : ∀ i, (w.machines i).engine.setup.hash = hashes i
  frugal : ∀ i, Frugal (weightOf hashes) (w.machines i) (budgets i)
  funded : deliveries occurrences + weigh (weightOf hashes) w.flight +
    ∑ i, ((w.machines i).engine.neighbors.free + budgets i) ≤ bound

/-- One engine changes, and with it what is under way. -/
theorem Funded.set (h : Funded hashes bound occurrences w budgets) {i : ι} {m : Machine}
    {budget : Nat} {flight : List Datagram}
    (hsetup : m.engine.setup = (w.machines i).engine.setup)
    (hfrugal : Frugal (weightOf hashes) m budget)
    (hmeasure : deliveries [o] + weigh (weightOf hashes) flight +
        (m.engine.neighbors.free + budget) ≤
      weigh (weightOf hashes) w.flight + ((w.machines i).engine.neighbors.free + budgets i)) :
    Funded hashes bound (occurrences ++ [o]) ⟨w.set i m, flight⟩
      fun j => if j = i then budget else budgets j where
  hash_eq j := by
    simp only [Network.set]
    split
    · rename_i hj
      rw [hsetup, h.hash_eq, hj]
    · exact h.hash_eq j
  frugal j := by
    simp only [Network.set]
    split
    · exact hfrugal
    · exact h.frugal j
  funded := by
    have hsum := sum_set (fun j => (w.machines j).engine.neighbors.free + budgets j) i
      (m.engine.neighbors.free + budget)
    have hset : ∀ j, (w.set i m j).engine.neighbors.free + (if j = i then budget else budgets j) =
        if j = i then m.engine.neighbors.free + budget
        else (w.machines j).engine.neighbors.free + budgets j := by
      intro j
      rw [Network.set]
      split <;> rfl
    have hfunded := h.funded
    simp only [hset]
    rw [deliveries_snoc]
    omega

/-- Every step of the network is paid for. -/
theorem Funded.step (h : Funded hashes bound occurrences w budgets) (hcalm : o.IsCalm)
    (hstep : Network.Step address w o w') :
    ∃ budgets', Funded hashes bound (occurrences ++ [o]) w' budgets' := by
  cases hstep with
  | @act i label m hstep own =>
    obtain ⟨budget, hfrugal, hpaid⟩ := (h.frugal i).step hstep own hcalm (address i)
    refine ⟨_, h.set hstep.setup_eq hfrugal ?_⟩
    have hnone : deliveries [Occurrence.acted i label] = 0 := rfl
    rw [weigh_append, hnone]
    omega
  | @deliver i d before after now m flight hstep =>
    have hello : Frame.helloLength ≠ Frame.migrateLength := by decide
    have hack : Frame.ackLength ≠ Frame.migrateLength := by decide
    obtain ⟨budget, hfrugal, hpaid⟩ := (h.frugal i).receive hstep
      (weightOf_encode_le_one _ hello) (fun status => weightOf_encode_le_one _ hack) (by
        rw [h.hash_eq i]
        exact reads_lt_weightOf i d.bytes)
    refine ⟨_, h.set hstep.setup_eq hfrugal ?_⟩
    have hone : deliveries [Occurrence.delivered i d now] = 1 := rfl
    rw [flight, weigh_append, weigh_append, weigh_cons, hone]
    omega
  | @lose d before after flight =>
    refine ⟨budgets, h.hash_eq, h.frugal, ?_⟩
    have hfunded := h.funded
    have hnone : deliveries [(Occurrence.lost d : Occurrence ι)] = 0 := rfl
    rw [flight, weigh_append, weigh_cons] at hfunded
    rw [deliveries_snoc, hnone, weigh_append]
    dsimp only
    omega

/-- Every run is, by induction on its steps. -/
theorem Funded.run {begin : Network ι} (h : Funded hashes bound [] begin budgets)
    (hrun : Network.Run address Occurrence.IsCalm begin occurrences w) :
    ∃ budgets', Funded hashes bound occurrences w budgets' := by
  induction hrun with
  | nil => exact ⟨budgets, h⟩
  | snoc _ hcalm hstep ih =>
    obtain ⟨budgets', hfunded⟩ := ih
    exact hfunded.step hcalm hstep

-- ---------------------------------------------------------------------------
-- The bound
-- ---------------------------------------------------------------------------

namespace Network

omit [DecidableEq ι]

/-- The hashes of the engines, each by its own key. -/
def keyedHashes (w : Network ι) (i : ι) : KeyedHash := (w.machines i).engine.setup.hash

/-- Some engine reads a datagram as a message of a kind. -/
def reads (w : Network ι) (kind : UInt8) (d : Datagram) : Bool :=
  decide (∃ i, Engine.reads (w.keyedHashes i) kind d.bytes)

/-- The number of greetings under way. -/
def hellos (w : Network ι) : Nat := w.flight.countP (w.reads Frame.helloKind)

/-- The number of migrations under way. -/
def migrations (w : Network ι) : Nat := w.flight.countP (w.reads Frame.migrateKind)

/-- The number of other datagrams under way. -/
def others (w : Network ι) : Nat :=
  w.flight.countP fun d => !w.reads Frame.helloKind d && !w.reads Frame.migrateKind d

/-- No datagram is read both as a greeting and as a migration, whatever the keys: the two
differ in length. -/
theorem not_reads_both (w : Network ι) (d : Datagram) (hhello : w.reads Frame.helloKind d = true)
    (hmigrate : w.reads Frame.migrateKind d = true) : False := by
  obtain ⟨i, hi⟩ := of_decide_eq_true hhello
  obtain ⟨j, hj⟩ := of_decide_eq_true hmigrate
  obtain ⟨m, hkind, hlength⟩ := length_of_reads hi
  rw [length_of_reads_migration hj] at hlength
  cases m with
  | hello id => exact absurd hlength (show Frame.migrateLength ≠ Frame.helloLength by decide)
  | _ => cases hkind

theorem weigh_flight (w : Network ι) :
    weigh (weightOf w.keyedHashes) w.flight = w.hellos + 2 * w.migrations + w.others := by
  have hone : ∀ d : Datagram, weightOf w.keyedHashes d.bytes =
      (if w.reads Frame.helloKind d then 1 else 0) +
        2 * (if w.reads Frame.migrateKind d then 1 else 0) +
        if !w.reads Frame.helloKind d && !w.reads Frame.migrateKind d then 1 else 0 := by
    intro d
    have hweight : weightOf w.keyedHashes d.bytes =
        if w.reads Frame.migrateKind d then 2 else 1 := by
      simp only [weightOf, reads, decide_eq_true_eq]
    rw [hweight]
    cases hhello : w.reads Frame.helloKind d <;> cases hmigrate : w.reads Frame.migrateKind d
    · rfl
    · rfl
    · rfl
    · exact absurd hmigrate (w.not_reads_both d hhello)
  rw [hellos, migrations, others]
  generalize w.flight = flight
  induction flight with
  | nil => rfl
  | cons d rest ih =>
    rw [weigh_cons, ih, hone, List.countP_cons, List.countP_cons, List.countP_cons]
    omega

end Network

/-- The datagrams that have an answer: a migration of another node, and the greeting of
another node that was entered into the table just now. -/
def Answerable (s : Setup) (datagram : List UInt8) (origin : Address) (now : Nat)
    (made : List Performed) : Prop :=
  match Frame.decode s.hash datagram with
  | .ok (.hello id) => id ≠ s.nodeId ∧ ⟨.upsert id origin now, .ok .inserted⟩ ∈ made
  | .ok (.migrate id _ _) => id ≠ s.nodeId
  | .ok (.ack _) => False
  | .error _ => False

/-- **No message storm.** Engines of which none has anything in hand, with whatever keys,
identities and tables, and with any datagrams under way, handle datagrams and do nothing
else of themselves; the network may lose and reorder datagrams, but delivers each at most
once. Then the number of datagrams that are handled is at most the number of greetings that
were under way, twice the number of migrations, the number of other datagrams, and the free
places in all tables.

And handling a datagram hands at most one frame to the socket, for where the datagram came
from. It hands none to it unless the datagram is a migration of another node, or the greeting
of another node that was entered just now. -/
theorem no_message_storm (address : ι → Address) (begin w : Network ι)
    (occurrences : List (Occurrence ι)) (resting : ∀ i, (begin.machines i).AtRest)
    (run : Network.Run address Occurrence.IsCalm begin occurrences w) :
    deliveries occurrences ≤ begin.hellos + 2 * begin.migrations + begin.others +
      ∑ i, (begin.machines i).engine.neighbors.free ∧
    ∀ s datagram origin now made left, (handle s datagram origin now).Trace made left →
      (sends made).length ≤ 1 ∧ (∀ sent ∈ sends made, sent.2 = origin) ∧
      (¬ Answerable s datagram origin now made → sends made = []) := by
  constructor
  · have h : Funded begin.keyedHashes
        (begin.hellos + 2 * begin.migrations + begin.others +
          ∑ i, (begin.machines i).engine.neighbors.free) [] begin fun _ => 0 := by
      refine ⟨fun _ => rfl, fun i => (resting i).frugal, ?_⟩
      rw [begin.weigh_flight]
      exact Nat.le_of_eq (by simp only [deliveries, List.countP_nil, Nat.zero_add, Nat.add_zero])
    obtain ⟨budgets, hfunded⟩ := h.run run
    have hbound := hfunded.funded
    omega
  · intro s datagram origin now made left htrace
    rcases sends_handle htrace with hnone | ⟨frame, m, hsent, hdecode, hforeign, hanswers⟩
    · rw [hnone]
      exact ⟨Nat.zero_le _, nofun, fun _ => rfl⟩
    · rw [hsent]
      refine ⟨Nat.le_refl _, fun sent hmem => ?_, fun hunanswerable => ?_⟩
      · cases List.mem_singleton.mp hmem
        rfl
      · refine absurd ?_ hunanswerable
        rw [Answerable, hdecode]
        cases m with
        | hello id => exact ⟨fun hown => hforeign (congrArg some hown), hanswers.2⟩
        | migrate id gene fitness => exact fun hown => hforeign (congrArg some hown)
        | ack status => exact hanswers

/-- Node 2 has greeted node 1, and each has room for one neighbor. They greet each other back,
and then they fall silent: three greetings are handled, one for the first and one for each free
place. -/
theorem no_message_storm_of_greeting :
    let config : Bool → EngineConfig := fun i =>
      { EngineConfig.standard (if i then 2 else 1) 0 ⟨[]⟩ with neighborCapacity := 1 }
    let address : Bool → Address := fun i => if i then .anyHost 9 else .anyHost 8
    let engines : Bool → Engine := fun i => fresh (config i) (address i)
    let begin : Network Bool := ⟨fun i => ⟨engines i, .waiting, .done (), []⟩,
      [⟨.anyHost 9, .anyHost 8, (engines true).setup.greeting⟩]⟩
    (∀ i, (begin.machines i).AtRest) ∧
    ∃ occurrences w, Network.Run address Occurrence.IsCalm begin occurrences w ∧
      deliveries occurrences = 3 ∧
      deliveries occurrences ≤ begin.hellos + 2 * begin.migrations + begin.others +
        ∑ i, (begin.machines i).engine.neighbors.free := by
  intro config address engines begin
  have resting : ∀ i, (begin.machines i).AtRest := fun _ => ⟨rfl, nofun⟩
  let socket : Socket := fun _ _ => true
  let greeting : Bool → List UInt8 := fun i => (engines i).setup.greeting
  have hread : ∀ i j, Frame.decode (engines j).setup.hash (greeting i) =
      .ok (.hello (engines i).setup.nodeId) :=
    fun i j => Frame.decode_encode _ (m := .hello (engines i).setup.nodeId) trivial
  -- node 1 enters node 2, greets it back and queues the event
  have h1 : Network.Run address Occurrence.IsCalm begin _ _ :=
    .snoc .nil (by exact trivial) (@Network.Step.deliver _ _ _ _ false
      ⟨.anyHost 9, .anyHost 8, greeting true⟩ [] [] 0 _ rfl (.receive _ _ _ rfl rfl))
  have h2 := h1.snoc (by exact trivial) (.act (i := false) (.network socket
    (handle_of_decode (hread true false) (by decide) (.anyHost 9) 0)) nofun)
  have h3 := h2.snoc (by exact trivial) (.act (i := false) (.network socket rfl) nofun)
  have h4 := h3.snoc (by exact trivial) (.act (i := false) (.network socket rfl) nofun)
  have h5 := h4.snoc (by exact trivial) (.act (i := false) (.network socket rfl) nofun)
  have h6 := h5.snoc (by exact trivial) (.act (i := false) (.network socket rfl) nofun)
  -- node 2 does the same
  have h7 := h6.snoc (by exact trivial) (@Network.Step.deliver _ _ _ _ true
    ⟨.anyHost 8, .anyHost 9, greeting false⟩ [] [] 0 _ rfl (.receive _ _ _ rfl rfl))
  have h8 := h7.snoc (by exact trivial) (.act (i := true) (.network socket
    (handle_of_decode (hread false true) (by decide) (.anyHost 8) 0)) nofun)
  have h9 := h8.snoc (by exact trivial) (.act (i := true) (.network socket rfl) nofun)
  have h10 := h9.snoc (by exact trivial) (.act (i := true) (.network socket rfl) nofun)
  -- node 1 has done its housekeeping, and gets the last greeting
  have h11 := h10.snoc (by rfl) (.act (i := false) (.housekeeping false 0 rfl rfl rfl) nofun)
  have h12 := h11.snoc (by rfl) (.act (i := false) (.network socket rfl) nofun)
  have h13 := h12.snoc (by exact trivial) (.act (i := false) (.network socket rfl) nofun)
  have h14 := h13.snoc (by exact trivial) (@Network.Step.deliver _ _ _ _ false
    ⟨.anyHost 9, .anyHost 8, greeting true⟩ [] [] 0 _ rfl (.receive _ _ _ rfl rfl))
  exact ⟨resting, _, _, h14, rfl, (no_message_storm address begin _ _ resting h14).1⟩

end Engine

end AffineSwarm
