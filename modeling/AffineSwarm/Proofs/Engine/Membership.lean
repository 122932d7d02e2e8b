import AffineSwarm.Proofs.Engine.Chores
import AffineSwarm.Proofs.Engine.Credit
import AffineSwarm.Proofs.Engine.Roster

/-!
# Membership follows liveness

In every run of an engine, each entry of the neighbor table says when its node was heard from
last and how often a send to it failed since; and housekeeping removes exactly the entries
whose nodes have been silent for too long.

The invariant (`Tended`) has two halves. The entries are accounted for by the accesses that
were made (`Credited`). And these accesses are those that the datagrams, the passes and the
calls of the run make: the network loop is behind with at most one chore (`Books`), and the
application records the static neighbors that it is called with.

## Results

* `Tended.step` — every step keeps the table tended.
* `Tended.evicts` — an eviction is that of the pass in hand.
* `membership_follows_liveness` — all of it, for every run.
-/

namespace AffineSwarm.Engine

-- ---------------------------------------------------------------------------
-- What is due and what was done
-- ---------------------------------------------------------------------------

/-- The chore that a step makes for the network loop. -/
def Label.due? (s : Setup) : Label → Option Chore
  | .housekeeping _ now => some (.evict now s.staleAfter)
  | .received datagram origin now => creditChore? s datagram origin now
  | _ => none

/-- The chore that the network loop does to the entries in a step. -/
def Label.chore? : Label → Option Chore
  | .performed .network ⟨.upsert id address now, _⟩ => some (.upsert id address now)
  | .performed .network ⟨.touch address now, _⟩ => some (.touch address now)
  | .performed .network ⟨.evict now staleAfter, _⟩ => some (.evict now staleAfter)
  | _ => none

/-- The entries that a step evicts. -/
def Label.evicted : Label → List Neighbor
  | .performed _ ⟨.evict _ _, evicted⟩ => evicted
  | _ => []

/-- The chores that the passes and the datagrams made, in order. -/
def choresDue (s : Setup) (labels : List Label) : List Chore := labels.filterMap (·.due? s)

/-- The chores that the network loop did to the entries, in order. -/
def choresDone (labels : List Label) : List Chore := labels.filterMap Label.chore?

/-- How many entries were evicted. -/
def evictions (labels : List Label) : Nat := (labels.flatMap Label.evicted).length

namespace Chore

/-- The chore that is still to be done to the entries. -/
def pending? : Option Chore → Option Chore
  | some (.tally _) => none
  | due => due

/-- How many evicted neighbors are still to be counted. -/
def uncounted : Option Chore → Nat
  | some (.tally count) => count
  | _ => 0

end Chore

/-- The books of a network loop that has a chore left: all chores were done but that one, and
all evicted neighbors were counted but those that it is to count. -/
structure Books (s : Setup) (labels : List Label) (stats : Stats) (due : Option Chore) :
    Prop where
  done : choresDue s labels = choresDone labels ++ (Chore.pending? due).toList
  counted : stats.neighborsEvicted + Chore.uncounted due = evictions labels

variable {s : Setup} {labels : List Label} {label : Label} {stats : Stats}
  {due due' : Option Chore}

theorem choresDue_snoc (s : Setup) (labels : List Label) (label : Label) :
    choresDue s (labels ++ [label]) = choresDue s labels ++ (label.due? s).toList :=
  filterMap_snoc ..

theorem choresDone_snoc (labels : List Label) (label : Label) :
    choresDone (labels ++ [label]) = choresDone labels ++ label.chore?.toList :=
  filterMap_snoc ..

theorem evictions_snoc (labels : List Label) (label : Label) :
    evictions (labels ++ [label]) = evictions labels + label.evicted.length := by
  rw [evictions, List.flatMap_append, List.flatMap_singleton, List.length_append, evictions]

theorem books_nil (s : Setup) : Books s [] .zero none := ⟨rfl, rfl⟩

/-- A step that neither makes a chore nor does one to the entries. It may count. -/
theorem Books.snoc (h : Books s labels stats due) {stats' : Stats} (hdue : label.due? s = none)
    (hchore : label.chore? = none) (hevicted : label.evicted = [])
    (hpending : Chore.pending? due' = Chore.pending? due)
    (hstats : stats'.neighborsEvicted + Chore.uncounted due' =
      stats.neighborsEvicted + Chore.uncounted due) :
    Books s (labels ++ [label]) stats' due' where
  done := by
    rw [choresDue_snoc, choresDone_snoc, hdue, hchore, hpending, Option.toList_none,
      List.append_nil, List.append_nil]
    exact h.done
  counted := by
    rw [evictions_snoc, hevicted, hstats]
    exact h.counted

/-- A step that makes a chore for a loop that has none. -/
theorem Books.begin (h : Books s labels stats none) (hchore : label.chore? = none)
    (hevicted : label.evicted = []) (hdue : Chore.pending? (label.due? s) = label.due? s)
    (huncounted : Chore.uncounted (label.due? s) = 0) :
    Books s (labels ++ [label]) stats (label.due? s) where
  done := by
    have hdone : choresDue s labels = choresDone labels := h.done.trans (List.append_nil _)
    rw [choresDue_snoc, choresDone_snoc, hchore, hdue, hdone, Option.toList_none,
      List.append_nil]
  counted := by
    rw [evictions_snoc, hevicted, huncounted]
    exact h.counted

/-- A step that does the chore that is due. -/
theorem Books.finish {c : Chore} (h : Books s labels stats (some c)) {stats' : Stats}
    (hpending : Chore.pending? (some c) = some c) (hdue : label.due? s = none)
    (hchore : label.chore? = some c) (hleft : Chore.pending? due' = none)
    (hstats : stats'.neighborsEvicted + Chore.uncounted due' =
      stats.neighborsEvicted + Chore.uncounted (some c) + label.evicted.length) :
    Books s (labels ++ [label]) stats' due' where
  done := by
    have hdone := h.done
    rw [hpending] at hdone
    rw [choresDue_snoc, choresDone_snoc, hdue, hchore, hleft, Option.toList_none,
      List.append_nil, List.append_nil]
    exact hdone
  counted := by
    rw [evictions_snoc, hstats, h.counted]

/-- An access of the network loop that does what is due. -/
theorem Books.performed {e : Engine} (h : Books s labels e.stats due) (socket : Socket)
    {a : Access} (hafter : Chore.after due a (a.perform socket e).1 = some due') :
    Books s (labels ++ [.performed .network ⟨a, (a.perform socket e).1⟩])
      (a.perform socket e).2.stats due' := by
  cases a with
  | upsert id address now =>
    obtain ⟨rfl, hleft⟩ := Option.ite_none_right_eq_some.mp hafter
    cases hleft
    refine h.finish rfl rfl rfl rfl ?_
    rw [Access.perform]
    split <;> rfl
  | touch address now =>
    obtain ⟨rfl, hleft⟩ := Option.ite_none_right_eq_some.mp hafter
    cases hleft
    exact h.finish rfl rfl rfl rfl rfl
  | evict now staleAfter =>
    obtain ⟨rfl, hleft⟩ := Option.ite_none_right_eq_some.mp hafter
    cases hleft
    exact h.finish rfl rfl rfl rfl rfl
  | count counter n =>
    cases counter with
    | neighborsEvicted =>
      obtain ⟨rfl, hleft⟩ := Option.ite_none_right_eq_some.mp hafter
      cases hleft
      exact h.snoc rfl rfl rfl rfl rfl
    | _ =>
      cases hafter
      exact h.snoc rfl rfl rfl rfl rfl
  | recordFailure id =>
    cases hafter
    refine h.snoc rfl rfl rfl rfl ?_
    rw [Access.perform]
    split <;> rfl
  | _ =>
    cases hafter
    exact h.snoc rfl rfl rfl rfl rfl

/-- What the application does is no chore of the network loop. -/
theorem Books.recorded {e : Engine} (h : Books s labels e.stats due) (socket : Socket)
    {c : Call} {a : Access} (hrecords : c.Records a) :
    Books s (labels ++ [.performed (.application c) ⟨a, (a.perform socket e).1⟩])
      (a.perform socket e).2.stats due := by
  rcases hrecords with ⟨id, address, now, -, rfl⟩ | haside
  · refine h.snoc rfl rfl rfl rfl ?_
    rw [Access.perform]
    split <;> rfl
  · cases a with
    | upsert id address now => exact haside.elim
    | touch address now => exact haside.elim
    | evict now staleAfter => exact haside.elim
    | count counter n =>
      cases counter with
      | neighborsEvicted => exact haside.elim
      | _ => exact h.snoc rfl rfl rfl rfl rfl
    | recordFailure id =>
      refine h.snoc rfl rfl rfl rfl ?_
      rw [Access.perform]
      split <;> rfl
    | _ => exact h.snoc rfl rfl rfl rfl rfl

-- ---------------------------------------------------------------------------
-- The invariant
-- ---------------------------------------------------------------------------

/-- A step that makes no access leaves the accounts as they are. -/
theorem Credited.quiet {t : Neighbor.Table} (h : Credited labels t)
    (hafter : Recorded (labels ++ [label]) t)
    (hquiet : ∀ thread p, label ≠ .performed thread p) : Credited (labels ++ [label]) t := by
  intro n hn
  have hentered := hafter.enteredAt_of_mem hn
  cases label with
  | performed thread p => exact absurd rfl (hquiet thread p)
  | _ => exact (h n hn).keep hentered (fun _ => not_false) rfl

/-- A table whose entries are accounted for by what the datagrams, the passes and the calls of
a run make. -/
structure Tended (s : Setup) (capacity : Nat) (labels : List Label) (m : Machine) : Prop where
  registered : Registered s capacity labels m
  credited : Credited labels m.engine.neighbors
  network : ∃ due, Books s labels m.engine.stats due ∧ m.network.Leads none due
  calls : ∀ c ∈ m.calls, c.rest.All c.call.Records
  asked : ∀ c p, .performed (.application c) p ∈ labels → c.Records p.access

theorem Tended.starting {config : EngineConfig} {opening : Opening} {e : Engine}
    (h : start config opening = .ok e) :
    Tended e.setup config.neighborCapacity [] (.starting e) where
  registered := .starting h
  credited := by
    obtain ⟨localAddress, rfl⟩ := start_eq_ok h
    nofun
  network := by
    obtain ⟨localAddress, rfl⟩ := start_eq_ok h
    exact ⟨none, books_nil _, rfl⟩
  calls := nofun
  asked _ _ := nofun

variable {capacity : Nat} {m m' : Machine}

/-- A loop with nothing in hand has no chore. -/
theorem Tended.idle (h : Tended s capacity labels m) (hidle : m.network = .done ()) :
    Books s labels m.engine.stats none := by
  obtain ⟨due, hbooks, hleads⟩ := h.network
  rw [hidle] at hleads
  cases hleads
  exact hbooks

theorem pending?_creditChore? (s : Setup) (datagram : List UInt8) (origin : Address) (now : Nat) :
    Chore.pending? (creditChore? s datagram origin now) = creditChore? s datagram origin now ∧
      Chore.uncounted (creditChore? s datagram origin now) = 0 := by
  rw [creditChore?]
  split
  · split <;> exact ⟨rfl, rfl⟩
  · split <;> exact ⟨rfl, rfl⟩
  · exact ⟨rfl, rfl⟩
  · exact ⟨rfl, rfl⟩

/-- The accounts after a step: an access keeps them, and so does any other step. -/
theorem Tended.credited_step (h : Tended s capacity labels m) (hstep : Step m label m') :
    Credited (labels ++ [label]) m'.engine.neighbors := by
  have hafter := (h.registered.step hstep).recorded
  rcases hstep.engine_cases with ⟨hengine, hquiet⟩ | ⟨thread, a, socket, rfl, hengine⟩
  · rw [hengine] at hafter ⊢
    exact h.credited.quiet hafter hquiet
  · rw [hengine]
    exact h.credited.perform h.registered.recorded socket thread a

/-- Every step keeps the table tended. -/
theorem Tended.step (h : Tended s capacity labels m) (hstep : Step m label m') :
    Tended s capacity (labels ++ [label]) m' := by
  have hregistered := h.registered.step hstep
  have hcredited := h.credited_step hstep
  have hsetup := h.registered.setup_eq
  have hasked : (∀ c p, label = .performed (.application c) p → c.Records p.access) →
      ∀ c p, .performed (.application c) p ∈ labels ++ [label] → c.Records p.access := by
    intro hlabel c p hmem
    rcases List.mem_append.mp hmem with hold | hnew
    · exact h.asked c p hold
    · exact hlabel c p (List.mem_singleton.mp hnew).symm
  obtain ⟨due, hbooks, hleads⟩ := h.network
  cases hstep with
  | housekeeping hello now stage running idle =>
    refine ⟨hregistered, hcredited, ⟨_, (h.idle idle).begin rfl rfl rfl rfl, ?_⟩, h.calls,
      hasked (by rintro _ _ ⟨⟩)⟩
    rw [hsetup]
    exact leads_upkeep s hello now
  | receive datagram origin now stage idle =>
    obtain ⟨hpending, huncounted⟩ := pending?_creditChore? s datagram origin now
    refine ⟨hregistered, hcredited, ⟨_, (h.idle idle).begin rfl rfl hpending huncounted, ?_⟩,
      h.calls, hasked (by rintro _ _ ⟨⟩)⟩
    rw [hsetup]
    exact leads_handle s datagram origin now
  | lapse stage idle =>
    exact ⟨hregistered, hcredited, ⟨due, hbooks.snoc rfl rfl rfl rfl rfl, hleads⟩, h.calls,
      hasked (by rintro _ _ ⟨⟩)⟩
  | finish stage stopped idle =>
    exact ⟨hregistered, hcredited, ⟨due, hbooks.snoc rfl rfl rfl rfl rfl, hleads⟩, h.calls,
      hasked (by rintro _ _ ⟨⟩)⟩
  | call c =>
    refine ⟨hregistered, hcredited, ⟨due, hbooks.snoc rfl rfl rfl rfl rfl, hleads⟩,
      fun c' hc' => ?_, hasked (by rintro _ _ ⟨⟩)⟩
    rcases List.mem_append.mp hc' with hold | hnew
    · exact h.calls c' hold
    · cases List.mem_singleton.mp hnew
      exact aside_begun m.engine c
  | leave hcalls join =>
    exact ⟨hregistered, hcredited, ⟨due, hbooks.snoc rfl rfl rfl rfl rfl, hleads⟩,
      forall_mem_remove (hcalls ▸ h.calls), hasked (by rintro _ _ ⟨⟩)⟩
  | network socket work =>
    rw [work] at hleads
    obtain ⟨due', hafter, hnext⟩ := hleads _
    exact ⟨hregistered, hcredited, ⟨due', hbooks.performed socket hafter, hnext⟩, h.calls,
      hasked (by rintro _ _ ⟨⟩)⟩
  | @application before after c a next socket hcalls =>
    have hall := h.calls _ (hcalls ▸ List.mem_append_cons_self)
    refine ⟨hregistered, hcredited, ⟨due, hbooks.recorded socket hall.1, hleads⟩,
      forall_mem_replace (hcalls ▸ h.calls) (hall.2 _), hasked ?_⟩
    rintro _ _ ⟨⟩
    exact hall.1

/-- Every run does, by induction on its steps. -/
theorem Tended.run {begin : Machine} (h : Tended s capacity [] begin)
    (hrun : Run begin labels m) : Tended s capacity labels m := by
  induction hrun with
  | nil => exact h
  | snoc _ hstep ih => exact ih.step hstep

-- ---------------------------------------------------------------------------
-- Eviction
-- ---------------------------------------------------------------------------

/-- The entries that a pass of housekeeping finds stale at a time, and those that it keeps: an
entry is stale if it is older than allowed, and not if it is just as old or newer than the
time of the pass. -/
theorem evictStale_eq (t : Neighbor.Table) (now staleAfter : Nat) :
    (t.evictStale now staleAfter).1 =
      t.entries.filter (fun n => n.lastSeen + staleAfter < now) ∧
    (t.evictStale now staleAfter).2.entries =
      t.entries.filter (fun n => now ≤ n.lastSeen + staleAfter) := by
  constructor
  · refine List.filter_congr fun n _ => ?_
    rw [Neighbor.isStale]
    exact decide_eq_decide.mpr (by omega)
  · refine List.filter_congr fun n _ => ?_
    rw [Neighbor.isStale, ← decide_not]
    exact decide_eq_decide.mpr (by omega)

/-- An eviction is that of the pass that the network loop has in hand. -/
theorem Tended.evicts (h : Tended s capacity labels m) {thread : Thread} {now staleAfter : Nat}
    {evicted : List Neighbor}
    (hstep : Step m (.performed thread ⟨.evict now staleAfter, evicted⟩) m') :
    thread = .network ∧
      choresDue s labels = choresDone labels ++ [.evict now staleAfter] ∧
      m'.engine.neighbors = (m.engine.neighbors.evictStale now staleAfter).2 ∧
      evicted = (m.engine.neighbors.evictStale now staleAfter).1 := by
  cases hstep with
  | network socket work =>
    obtain ⟨due, hbooks, hleads⟩ := h.network
    rw [work] at hleads
    obtain ⟨due', hafter, -⟩ := hleads (m.engine.neighbors.evictStale now staleAfter).1
    obtain ⟨rfl, -⟩ := Option.ite_none_right_eq_some.mp hafter
    exact ⟨rfl, hbooks.done, rfl, rfl⟩
  | @application before after c a next socket hcalls =>
    have hall := h.calls _ (hcalls ▸ List.mem_append_cons_self)
    rcases hall.1 with ⟨id, address, now, -, heq⟩ | haside
    · cases heq
    · exact haside.elim

/-- To evict is due to a pass of housekeeping, at its time. -/
theorem housekeeping_of_mem_choresDue {now staleAfter : Nat}
    (h : .evict now staleAfter ∈ choresDue s labels) :
    staleAfter = s.staleAfter ∧ ∃ due, .housekeeping due now ∈ labels := by
  obtain ⟨label, hmem, hdue⟩ := List.mem_filterMap.mp h
  cases label with
  | housekeeping due now =>
    cases hdue
    exact ⟨rfl, due, hmem⟩
  | received datagram origin now =>
    rw [Label.due?, creditChore?] at hdue
    split at hdue
    · split at hdue <;> cases hdue
    · split at hdue <;> cases hdue
    · cases hdue
    · cases hdue
  | _ => cases hdue

-- ---------------------------------------------------------------------------
-- The table
-- ---------------------------------------------------------------------------

/-- **Membership follows liveness.** In every run of an engine, with the steps of its threads
in any order and whatever the clock says:

* each entry says when its node was credited last, not before it was entered, and how many
  failed sends were counted against it since, up to the largest count;
* what credits a node is what the datagrams make the network loop do, one by one and in order
  with the evictions that the passes make it do: another node that greets or migrates is
  recorded at the time of the datagram, and an acknowledgement refreshes its address. The loop
  is behind with at most one of these, and with none when it has nothing in hand;
* besides, a node is credited by a call to add it as a static neighbor and by no other call,
  and the call does this before anything else and only once, unless it is refused;
* an eviction is that of the pass in hand, at the time of that pass. It removes the entries that
  are older than allowed then, and keeps the others as they are and in order;
* the counter of evicted neighbors is the number of removed entries, when the loop has nothing
  in hand. -/
theorem membership_follows_liveness (config : EngineConfig) (opening : Opening) (e : Engine)
    (labels : List Label) (m : Machine) (started : start config opening = .ok e)
    (run : Run (.starting e) labels m) :
    (∀ n ∈ m.engine.neighbors.entries, ∃ entered place, EnteredAt labels n.id entered ∧
      entered ≤ place ∧ CreditedAt labels n.id place n.lastSeen ∧
      n.failures.toNat = min (failuresSince labels n.id place) (UInt32.size - 1)) ∧
    (∃ coming, choresDue e.setup labels = choresDone labels ++ coming ∧
      coming.length ≤ 1 ∧ (m.network = .done () → coming = [])) ∧
    ((∀ c id address now answer,
        .performed (.application c) ⟨.upsert id address now, answer⟩ ∈ labels →
        c = .addStaticNeighbor address id now) ∧
      (∀ c address now answer,
        .performed (.application c) ⟨.touch address now, answer⟩ ∉ labels) ∧
      ∀ address id now m', Step m (.called (.addStaticNeighbor address id now)) m' →
        m.engine.running = true → id ≠ config.nodeId →
        ∃ next, m'.calls = m.calls ++
          [⟨.addStaticNeighbor address id now, .access (.upsert id address now) next⟩] ∧
          ∀ outcome, (next outcome).All Aside) ∧
    (∀ thread now staleAfter evicted m',
      Step m (.performed thread ⟨.evict now staleAfter, evicted⟩) m' →
      choresDue e.setup labels = choresDone labels ++ [.evict now staleAfter] ∧
      (∃ due, .housekeeping due now ∈ labels) ∧ staleAfter = config.staleAfter ∧
      evicted = m.engine.neighbors.entries.filter
        (fun n => n.lastSeen + config.staleAfter < now) ∧
      m'.engine.neighbors.entries = m.engine.neighbors.entries.filter
        (fun n => now ≤ n.lastSeen + config.staleAfter)) ∧
    ∃ uncounted, m.engine.stats.neighborsEvicted + uncounted = evictions labels ∧
      (m.network = .done () → uncounted = 0) := by
  have h : Tended e.setup config.neighborCapacity labels m := (Tended.starting started).run run
  obtain ⟨hnodeId, hstaleAfter⟩ :
      e.setup.nodeId = config.nodeId ∧ e.setup.staleAfter = config.staleAfter := by
    obtain ⟨localAddress, rfl⟩ := start_eq_ok started
    exact ⟨rfl, rfl⟩
  obtain ⟨due, hbooks, hleads⟩ := h.network
  have hidle : m.network = .done () → due = none := by
    intro hdone
    rw [hdone] at hleads
    exact hleads
  refine ⟨h.credited, ⟨_, hbooks.done, Option.length_toList_le, fun hdone => ?_⟩, ⟨?_, ?_, ?_⟩, ?_,
    _, hbooks.counted, fun hdone => ?_⟩
  · rw [hidle hdone]
    rfl
  · intro c id address now answer hmem
    rcases h.asked c _ hmem with ⟨id', address', now', rfl, heq⟩ | haside
    · cases heq
      rfl
    · exact haside.elim
  · intro c address now answer hmem
    rcases h.asked c _ hmem with ⟨id', address', now', -, heq⟩ | haside
    · cases heq
    · exact haside
  · intro address id now m' hstep hrunning hforeign
    rw [← hnodeId, ← h.registered.setup_eq] at hforeign
    obtain ⟨next, hbegun, honce⟩ := begun_addStaticNeighbor hrunning hforeign address now
    cases hstep with
    | call c => exact ⟨next, by rw [hbegun], honce⟩
  · intro thread now staleAfter evicted m' hstep
    obtain ⟨-, hdue, hkept, hevicted⟩ := h.evicts hstep
    have hmem : .evict now staleAfter ∈ choresDue e.setup labels :=
      hdue ▸ List.mem_append_right _ List.mem_cons_self
    obtain ⟨rfl, hpass⟩ := housekeeping_of_mem_choresDue hmem
    obtain ⟨hstale, hfresh⟩ := evictStale_eq m.engine.neighbors now e.setup.staleAfter
    rw [hkept, hevicted, ← hstaleAfter]
    exact ⟨hdue, hpass, rfl, hstale, hfresh⟩
  · rw [hidle hdone]
    rfl

/-- A static neighbor that is not reached is there as long as it is allowed to be silent, with
one failed send, and is evicted after that. -/
theorem membership_follows_liveness_of_silence :
    let config := EngineConfig.standard 1 0 ⟨[]⟩
    let e := fresh config (.anyHost 7)
    start config ⟨.ok (), .ok (), .ok (), .ok (.anyHost 7), .ok ()⟩ = .ok e ∧
    (∃ labels m place, Run (.starting e) labels m ∧
      m.engine.neighbors.entries = [⟨2, .anyHost 8, 0, 1⟩] ∧
      CreditedAt labels 2 place 0 ∧ failuresSince labels 2 place = 1) ∧
    ∃ labels m, Run (.starting e) labels m ∧ m.engine.neighbors.entries = [] ∧
      m.engine.stats.neighborsEvicted = 1 ∧ evictions labels = 1 := by
  intro config e
  have started : start config ⟨.ok (), .ok (), .ok (), .ok (.anyHost 7), .ok ()⟩ = .ok e := rfl
  let socket : Socket := fun _ _ => false
  -- the neighbor is entered, and greeting it fails
  have h1 : Run (.starting e) _ _ := .snoc .nil (.call (.addStaticNeighbor (.anyHost 8) 2 0))
  have h2 := h1.snoc (@Step.application _ [] [] _ _ _ socket rfl)
  have h3 := h2.snoc (@Step.application _ [] [] _ _ _ socket rfl)
  have h4 := h3.snoc (@Step.application _ [] [] _ _ _ socket rfl)
  have h5 := h4.snoc (@Step.application _ [] [] _ _ _ socket rfl)
  -- a pass at the last moment at which it may still be silent
  have h6 := h5.snoc (.housekeeping false config.staleAfter rfl rfl rfl)
  have h7 := (h6.snoc (.network socket rfl)).snoc (.network socket rfl)
  -- and a pass just after that
  have h8 := (h7.snoc (.lapse rfl rfl)).snoc
    (.housekeeping false (config.staleAfter + 1) rfl rfl rfl)
  have h9 := (h8.snoc (.network socket rfl)).snoc (.network socket rfl)
  obtain ⟨kept, k, hkept, hentry⟩ : ∃ labels m, Run (.starting e) labels m ∧
      m.engine.neighbors.entries = [⟨2, .anyHost 8, 0, 1⟩] := ⟨_, _, h7, rfl⟩
  obtain ⟨gone, g, hgone, hempty, hidle, hstats⟩ : ∃ labels m, Run (.starting e) labels m ∧
      m.engine.neighbors.entries = [] ∧ m.network = .done () ∧
      m.engine.stats.neighborsEvicted = 1 := ⟨_, _, h9, rfl, rfl, rfl⟩
  refine ⟨started, ⟨kept, k, ?_⟩, ⟨gone, g, hgone, hempty, hstats, ?_⟩⟩
  · obtain ⟨hentries, -⟩ := membership_follows_liveness config _ e kept k started hkept
    obtain ⟨entered, place, -, -, hcredited, hfailures⟩ :=
      hentries ⟨2, .anyHost 8, 0, 1⟩ (hentry ▸ List.mem_cons_self)
    have hcount : 1 = min (failuresSince kept 2 place) (UInt32.size - 1) := hfailures
    refine ⟨place, hkept, hentry, hcredited, ?_⟩
    simp only [UInt32.size] at hcount
    omega
  · obtain ⟨-, -, -, -, uncounted, hcounted, hidle'⟩ :=
      membership_follows_liveness config _ e gone g started hgone
    rw [hidle' hidle, Nat.add_zero, hstats] at hcounted
    exact hcounted.symm

end AffineSwarm.Engine
