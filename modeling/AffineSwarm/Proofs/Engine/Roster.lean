import AffineSwarm.Proofs.Engine.Enrolment
import AffineSwarm.Proofs.Engine.Uninterrupted
import Mathlib.Data.Finset.Card

/-!
# The neighbor table along a run

Whatever an engine does, its table has no more entries than configured and none of its own
node, and is as the history of the run has it (`Registered`). So a neighbor that is picked by
a number is one of a known age: the entries stand in the order in which they were entered.

## Results

* `Registered.step` — every step keeps the table bounded, recorded and without the node
  of the engine itself.
* `Recorded.isOldestBut_of_pick?`, `exists_pick?_eq` — whom a number picks, and that every
  entry can be picked.
* `table_is_insertion_ordered` — the table along any run, and whom it picks.
-/

namespace AffineSwarm.Engine

open Neighbor (Table)

variable {labels : List Label} {t : Table}

-- ---------------------------------------------------------------------------
-- The table along a run
-- ---------------------------------------------------------------------------

/-- The accesses that do not record the node of the engine itself. -/
def Foreign (s : Setup) : Access → Prop
  | .upsert id _ _ => id ≠ s.nodeId
  | _ => True

theorem Sending.foreign {s : Setup} {frame : List UInt8} {a : Access} (h : Sending frame a) :
    Foreign s a := by
  cases a with
  | upsert id address now => exact h.elim
  | _ => trivial

theorem Call.Allows.foreign {s : Setup} {c : Call} {a : Access} (h : c.Allows s a) :
    Foreign s a := by
  cases c with
  | sendHello => exact Sending.foreign h
  | addStaticNeighbor address id now =>
    rcases h with ⟨rfl, hown⟩ | h
    · exact hown
    · exact h.foreign
  | sendToRandom rand formula => exact Sending.foreign h
  | sendToAll formula => exact Sending.foreign h
  | nextEvent => exact h ▸ trivial
  | drainEvents => exact h ▸ trivial
  | stop => exact h ▸ trivial

theorem Upkeeps.foreign {s : Setup} {a : Access} (h : Upkeeps s a) : Foreign s a := by
  rcases h with h | ⟨now, rfl⟩
  · exact h.foreign
  · trivial

theorem Reacts.foreign {s : Setup} {origin : Address} {now : Nat} {m : Message} {a : Access}
    (h : Reacts s origin now m a) (hforeign : m.sender? ≠ some s.nodeId) : Foreign s a := by
  cases m with
  | hello id =>
    rcases h with rfl | rfl | h
    · exact fun hown => hforeign (congrArg some hown)
    · trivial
    · exact h.foreign
  | migrate id gene fitness =>
    rcases h with rfl | rfl | ⟨accepted, h⟩
    · exact fun hown => hforeign (congrArg some hown)
    · trivial
    · exact h.foreign
  | ack status =>
    rcases h with rfl | rfl
    · trivial
    · trivial

theorem handle_foreign (s : Setup) (datagram : List UInt8) (origin : Address) (now : Nat) :
    (handle s datagram origin now).All (Foreign s) := by
  refine (all_handle s datagram origin now).mono fun a ha => ?_
  rcases ha with ⟨counter, rfl⟩ | ⟨m, -, hforeign, hreacts⟩
  · trivial
  · exact hreacts.foreign hforeign

/-- What a run leaves of the table: it has no more nodes than it has room for, not the node
of the engine itself, and is as recorded. -/
structure Registered (s : Setup) (capacity : Nat) (labels : List Label) (m : Machine) :
    Prop where
  setup_eq : m.engine.setup = s
  capacity_eq : m.engine.neighbors.capacity = capacity
  length_le : m.engine.neighbors.length ≤ capacity
  own_not_mem : s.nodeId ∉ m.engine.neighbors.ids
  recorded : Recorded labels m.engine.neighbors
  obeys : m.Obeys (Foreign s)

theorem Registered.starting {config : EngineConfig} {opening : Opening} {e : Engine}
    (h : start config opening = .ok e) :
    Registered e.setup config.neighborCapacity [] (.starting e) := by
  obtain ⟨localAddress, rfl⟩ := start_eq_ok h
  exact ⟨rfl, rfl, Nat.zero_le _, nofun, recorded_empty _, Machine.obeys_starting _ _⟩

variable {s : Setup} {capacity : Nat} {m m' : Machine}

/-- Every step keeps the table as it should be. -/
theorem Registered.step {label : Label} (h : Registered s capacity labels m)
    (hstep : Step m label m') : Registered s capacity (labels ++ [label]) m' := by
  have hsetup : m'.engine.setup = s := hstep.setup_eq.trans h.setup_eq
  obtain ⟨hobeys, hmade⟩ := hstep.obeys h.obeys
    (fun due now => by
      rw [h.setup_eq]
      exact (all_upkeep s due now).mono fun _ => Upkeeps.foreign)
    (fun datagram origin now => by
      rw [h.setup_eq]
      exact handle_foreign s datagram origin now)
    (fun c _ => by
      have hbegun := all_begun m.engine c
      rw [h.setup_eq] at hbegun
      exact hbegun.mono fun _ => Call.Allows.foreign)
  rcases hstep.engine_cases with ⟨hengine, hquiet⟩ | ⟨thread, a, socket, rfl, hengine⟩
  · refine ⟨hsetup, ?_, ?_, ?_, ?_, hobeys⟩
    · rw [hengine]
      exact h.capacity_eq
    · rw [hengine]
      exact h.length_le
    · rw [hengine]
      exact h.own_not_mem
    · rw [hengine]
      cases label with
      | performed thread p => exact absurd rfl (hquiet thread p)
      | _ => exact h.recorded.keep rfl (fun _ => rfl) (fun _ => not_false) fun _ _ => rfl
  · obtain ⟨hcapacity, hids⟩ := perform_ids socket m.engine a
    have hforeign : Foreign s a := hmade _ _ rfl
    rw [← hengine] at hcapacity hids
    have hle := h.length_le
    rw [← Table.length_ids] at hle
    refine ⟨hsetup, hcapacity.trans h.capacity_eq, ?_, ?_, ?_, hobeys⟩
    · rw [← Table.length_ids]
      rcases hids with hsame | ⟨id, address, now, -, hroom, hids⟩ | ⟨now, staleAfter, -, hids⟩
      · rwa [hsame]
      · rw [hids, List.length_append, List.length_singleton, Table.length_ids, ← h.capacity_eq]
        exact hroom
      · exact Nat.le_trans hids.length_le hle
    · rcases hids with hsame | ⟨id, address, now, rfl, -, hids⟩ | ⟨now, staleAfter, -, hids⟩
      · rw [hsame]
        exact h.own_not_mem
      · rw [hids]
        intro hmem
        rcases List.mem_append.mp hmem with hold | hnew
        · exact h.own_not_mem hold
        · exact hforeign (List.mem_singleton.mp hnew).symm
      · exact fun hmem => h.own_not_mem (hids.subset hmem)
    · rw [hengine]
      exact h.recorded.perform socket thread a

/-- Every run does, by induction on its steps. -/
theorem Registered.run {begin : Machine} (h : Registered s capacity [] begin)
    (hrun : Run begin labels m) : Registered s capacity labels m := by
  induction hrun with
  | nil => exact h
  | snoc _ hstep ih => exact ih.step hstep

-- ---------------------------------------------------------------------------
-- Picking a neighbor
-- ---------------------------------------------------------------------------

/-- A neighbor that has stood entered for longer than all but so many others. -/
def IsOldestBut (labels : List Label) (t : Table) (rank : Nat) (n : Neighbor) : Prop :=
  ∃ older newer, t.entries = older ++ n :: newer ∧ older.length = rank ∧
    (∀ o ∈ older, EnteredBefore labels o.id n.id) ∧ ∀ y ∈ newer, EnteredBefore labels n.id y.id

/-- A number picks the neighbor whose rank is that number modulo the size of the table. -/
theorem Recorded.isOldestBut_of_pick? (h : Recorded labels t) (hne : t.length ≠ 0)
    (rand : UInt64) :
    ∃ n, t.pick? rand = some n ∧ IsOldestBut labels t (rand.toNat % t.length) n := by
  have hlt : rand.toNat % t.length < t.entries.length := Nat.mod_lt _ (Nat.pos_of_ne_zero hne)
  have hsplit : t.entries = t.entries.take (rand.toNat % t.length) ++
      t.entries[rand.toNat % t.length] :: t.entries.drop (rand.toNat % t.length + 1) := by
    rw [← List.drop_eq_getElem_cons hlt, List.take_append_drop]
  have hordered := h.ordered
  rw [Table.ids, hsplit, List.map_append, List.map_cons, List.pairwise_append,
    List.pairwise_cons] at hordered
  obtain ⟨-, ⟨hnewer, -⟩, holder⟩ := hordered
  refine ⟨t.entries[rand.toNat % t.length], List.getElem?_eq_getElem hlt, _, _, hsplit,
    List.length_take_of_le (Nat.le_of_lt hlt), fun o ho => ?_, fun y hy => ?_⟩
  · exact holder _ (List.mem_map_of_mem ho) _ List.mem_cons_self
  · exact hnewer _ (List.mem_map_of_mem hy)

/-- Every entry is picked by some number: a table has no more entries than there are
identities. -/
theorem exists_pick?_eq (hnodup : t.ids.Nodup) {n : Neighbor} (hn : n ∈ t.entries) :
    ∃ rand : UInt64, t.pick? rand = some n := by
  obtain ⟨i, hlt, rfl⟩ := List.getElem_of_mem hn
  have hlength : t.entries.length ≤ UInt32.size := by
    have hinjective : (t.ids.map UInt32.toNat).Nodup :=
      hnodup.map fun _ _ => UInt32.toNat_inj.mp
    have hsubset : (t.ids.map UInt32.toNat).toFinset ⊆ Finset.range UInt32.size := by
      intro k hk
      obtain ⟨id, -, rfl⟩ := List.mem_map.mp (List.mem_toFinset.mp hk)
      exact Finset.mem_range.mpr id.toNat_lt
    have hcard := Finset.card_le_card hsubset
    rwa [List.toFinset_card_of_nodup hinjective, Finset.card_range, List.length_map, Table.ids,
      List.length_map] at hcard
  refine ⟨UInt64.ofNat i, ?_⟩
  have hi : (UInt64.ofNat i).toNat = i := by
    rw [UInt64.toNat_ofNat']
    refine Nat.mod_eq_of_lt ?_
    simp only [UInt32.size] at hlength
    omega
  rw [Table.pick?, hi, Nat.mod_eq_of_lt hlt]
  exact List.getElem?_eq_getElem hlt

/-- A number makes the engine pick a neighbor: whoever picks with it gets that neighbor, and
a migration that nobody interrupts goes to the address of that neighbor and to no other. -/
structure Picks (m : Machine) (rand : UInt64) (n : Neighbor) : Prop where
  access : ∀ thread answer m', Step m (.performed thread ⟨.pick rand, answer⟩) m' →
    answer = some n
  call : ∀ socket formula, m.engine.running = true →
    ∃ e', sendToRandom socket rand formula m.engine = .ok (some n.id, e') ∧
      e'.outbox = m.engine.outbox ++
        [⟨n.address, m.engine.setup.migration formula, socket m.engine.attempts n.address⟩]

theorem picks_of_pick? {rand : UInt64} {n : Neighbor}
    (h : m.engine.neighbors.pick? rand = some n) : Picks m rand n where
  access thread answer m' hstep := by
    rcases hstep.engine_cases with ⟨-, hquiet⟩ | ⟨thread', a, socket, hlabel, -⟩
    · exact absurd rfl (hquiet _ _)
    · cases hlabel
      exact h
  call socket formula hrunning := by
    have hshare : (share m.engine.setup rand formula).run socket m.engine = (some n.id,
        ((transmitCounted .formulasSent (m.engine.setup.migration formula) n.address n.id).run
          socket m.engine).2) := by
      rw [share, run_bind]
      simp only [Routine.of, Routine.run, Access.perform, h]
      rw [run_bind]
      rfl
    refine ⟨_, ?_, outbox_transmitCounted socket m.engine .formulasSent _ n.address n.id⟩
    rw [sendToRandom, whileRunning, if_pos hrunning, hshare]

-- ---------------------------------------------------------------------------
-- The table
-- ---------------------------------------------------------------------------

/-- A node that finds the table full changes no entry. -/
theorem Step.neighbors_eq_of_full {thread : Thread} {id : NodeId} {address : Address} {now : Nat}
    {answer : Except NeighborError Table.Upsert}
    (h : Step m (.performed thread ⟨.upsert id address now, answer⟩) m')
    (hfull : m.engine.neighbors.capacity ≤ m.engine.neighbors.length)
    (hnew : id ∉ m.engine.neighbors.ids) : m'.engine.neighbors = m.engine.neighbors := by
  rcases h.engine_cases with ⟨-, hquiet⟩ | ⟨thread', a, socket, hlabel, hengine⟩
  · exact absurd rfl (hquiet _ _)
  · cases hlabel
    rw [hengine, Access.perform]
    rcases m.engine.neighbors.upsert_cases id address now with
      ⟨hmem, -⟩ | ⟨-, -, herror⟩ | ⟨-, hroom, -⟩
    · exact absurd hmem hnew
    · rw [herror]
    · exact absurd hfull (Nat.not_le_of_lt hroom)

/-- **The neighbor table is an insertion-ordered map.** In every run of an engine, with the
steps of its threads in any order:

* the table has no more entries than configured, no two of one node, and none of the engine's
  own node;
* it has the nodes that stand entered, in the order in which they were entered, each with the
  address where it was heard from last;
* a new node that finds the table full changes no entry;
* if there is an entry, then a number picks the one whose rank is that number modulo the size
  of the table, the neighbor entered first having rank 0; and every entry is picked by some
  number. -/
theorem table_is_insertion_ordered (config : EngineConfig) (opening : Opening) (e : Engine)
    (labels : List Label) (m : Machine) (started : start config opening = .ok e)
    (run : Run (.starting e) labels m) :
    let t := m.engine.neighbors
    (t.length ≤ config.neighborCapacity ∧ t.ids.Nodup ∧ config.nodeId ∉ t.ids) ∧
    ((∀ id, id ∈ t.ids ↔ ∃ place, EnteredAt labels id place) ∧
      t.ids.Pairwise (EnteredBefore labels) ∧
      ∀ n ∈ t.entries, lastAddress? labels n.id = some n.address) ∧
    (∀ thread id address now answer m', t.length = config.neighborCapacity → id ∉ t.ids →
      Step m (.performed thread ⟨.upsert id address now, answer⟩) m' →
      m'.engine.neighbors = t) ∧
    (t.length ≠ 0 → ∀ rand : UInt64, ∃ n,
      IsOldestBut labels t (rand.toNat % t.length) n ∧ Picks m rand n) ∧
    ∀ n ∈ t.entries, ∃ rand, Picks m rand n := by
  intro t
  have h : Registered e.setup config.neighborCapacity labels m :=
    (Registered.starting started).run run
  have hown : config.nodeId = e.setup.nodeId := by
    obtain ⟨localAddress, rfl⟩ := start_eq_ok started
    rfl
  refine ⟨⟨h.length_le, h.recorded.nodup, hown ▸ h.own_not_mem⟩, ⟨h.recorded.entered,
    h.recorded.ordered, fun n hn => ?_⟩, ?_, fun hne rand => ?_, fun n hn => ?_⟩
  · exact h.recorded.located (n.id, n.address) (List.mem_map_of_mem hn)
  · intro thread id address now answer m' hfull hnew hstep
    refine hstep.neighbors_eq_of_full ?_ hnew
    rw [h.capacity_eq]
    exact Nat.le_of_eq hfull.symm
  · obtain ⟨n, hpick, hrank⟩ := h.recorded.isOldestBut_of_pick? hne rand
    exact ⟨n, hrank, picks_of_pick? hpick⟩
  · obtain ⟨rand, hpick⟩ := exists_pick?_eq h.recorded.nodup hn
    exact ⟨rand, picks_of_pick? hpick⟩

/-- Nodes 2 and 3 are entered in that order, and 3 picks the second of them. -/
theorem table_is_insertion_ordered_of_two :
    let config := EngineConfig.standard 1 0 ⟨[]⟩
    let e := fresh config (.anyHost 7)
    start config ⟨.ok (), .ok (), .ok (), .ok (.anyHost 7), .ok ()⟩ = .ok e ∧
    ∃ labels m, Run (.starting e) labels m ∧ m.engine.neighbors.ids = [2, 3] ∧
      ∃ n, Picks m 3 n ∧ n.id = 3 ∧
        IsOldestBut labels m.engine.neighbors (3 % 2) n := by
  intro config e
  let opening : Opening := ⟨.ok (), .ok (), .ok (), .ok (.anyHost 7), .ok ()⟩
  have started : start config opening = .ok e := rfl
  let socket : Socket := fun _ _ => true
  -- each node is entered as a static neighbor, and greeted
  have h1 : Run (.starting e) _ _ := .snoc .nil (.call (.addStaticNeighbor (.anyHost 8) 2 0))
  have h2 := h1.snoc (@Step.application _ [] [] _ _ _ socket rfl)
  have h3 := h2.snoc (@Step.application _ [] [] _ _ _ socket rfl)
  have h4 := h3.snoc (@Step.application _ [] [] _ _ _ socket rfl)
  have h5 := h4.snoc (@Step.leave _ [] [] _ rfl nofun)
  have h6 := h5.snoc (.call (.addStaticNeighbor (.anyHost 9) 3 0))
  have h7 := h6.snoc (@Step.application _ [] [] _ _ _ socket rfl)
  obtain ⟨-, -, -, hpicks, -⟩ := table_is_insertion_ordered config opening e _ _ started h7
  obtain ⟨n, hrank, hn⟩ := hpicks (by decide) 3
  refine ⟨started, _, _, h7, rfl, n, hn, ?_, hrank⟩
  obtain ⟨older, newer, hentries, hlength, -⟩ := hrank
  have hentries : [⟨2, .anyHost 8, 0, 0⟩, ⟨3, .anyHost 9, 0, 0⟩] = older ++ n :: newer := hentries
  obtain ⟨first, rfl⟩ := List.length_eq_one_iff.mp (hlength.trans (by decide))
  cases hentries
  rfl

end AffineSwarm.Engine
