import AffineSwarm.Proofs.Engine.Courtesy
import AffineSwarm.Proofs.Engine.Introduction
import AffineSwarm.Proofs.Engine.Steps
import Mathlib.Data.Fintype.Card
import Mathlib.Data.List.Nodup

/-!
# A peer and its debts

What one peer does, whatever others do meanwhile. All that its threads have left to do
settles its debts (`Peers.Sound`), and a debt that it has when it is not at rest
(`Peers.Owes`) is there after a step too, unless the step has settled it: by greeting the
peer that was to be greeted, or by entering the one that was to be entered.

A peer has room for all others in its table, so its accesses give what is true of them
(`Peers.Sound.truthful`).

## Results

* `Peers.Owes.greet_step`, `Peers.Owes.enter_step` — a debt over a step.
* `Peers.Sound.made` — the routine that makes an access.
* `Peers.Sound.step` — a peer stays sound over a step.
* `Peers.Sound.inserted` — who was entered just now is owed a greeting, or knows the peer.
-/

namespace AffineSwarm.Engine

variable {ι : Type} {p : Peers ι} {i j : ι} {known known' : ι → ι → Prop} {d : Debt ι}
  {m m' : Machine} {label : Label}

theorem Routine.Clears.mono {α : Type} {r : Routine α} (h : r.Clears p i known d)
    (hle : known ≤ known') : r.Clears p i known' d := by
  cases r with
  | done result => exact h
  | access a next =>
    exact ⟨h.1.mono hle, fun known'' answer hle' => h.2 known'' answer (hle.trans hle')⟩

-- ---------------------------------------------------------------------------
-- The table over a step
-- ---------------------------------------------------------------------------

/-- The seats in the table after an access are those before it, or one that it records. -/
theorem mem_seats_perform (socket : Socket) {e : Engine} (hnodup : e.neighbors.ids.Nodup)
    {a : Access} {seat : NodeId × Address} (h : seat ∈ (a.perform socket e).2.neighbors.seats) :
    seat ∈ e.neighbors.seats ∨ ∃ id address now, a = .upsert id address now ∧
      seat = (id, address) := by
  cases a with
  | upsert id address now =>
    rw [Access.perform] at h
    split at h
    · rename_i hok
      exact (Neighbor.Table.mem_seats_upsert hnodup hok h).imp_right
        fun hseat => ⟨id, address, now, rfl, hseat⟩
    · exact .inl h
  | touch address now =>
    left
    rwa [Access.perform, Neighbor.Table.seats_touch] at h
  | recordFailure id =>
    left
    rw [Access.perform] at h
    split at h
    · rename_i hok
      rwa [(Neighbor.Table.seats_recordFailure hok).1] at h
    · exact h
  | evict now staleAfter => exact .inl ((List.filter_sublist.map _).subset h)
  | _ => exact .inl h

/-- A step that evicts nobody keeps all neighbors. -/
theorem Step.mem_ids_of_mem (h : Step m label m')
    (hkept : ∀ thread now staleAfter evicted,
      label = .performed thread ⟨.evict now staleAfter, evicted⟩ → evicted = [])
    {id : NodeId} (hmem : id ∈ m.engine.neighbors.ids) : id ∈ m'.engine.neighbors.ids := by
  rcases h.engine_cases with ⟨hengine, -⟩ | ⟨thread, a, socket, hlabel, hengine⟩
  · rwa [hengine]
  · rw [hengine]
    obtain ⟨-, hids⟩ := perform_ids socket m.engine a
    rcases hids with hsame | ⟨_, _, _, -, -, hentered⟩ | ⟨now, staleAfter, rfl, -⟩
    · rwa [hsame]
    · rw [hentered]
      exact List.mem_append_left _ hmem
    · rwa [Access.perform, Neighbor.Table.evictStale_eq_self (hkept _ _ _ _ hlabel)]

/-- A node that is new after a step was entered by it. -/
theorem Step.inserted_of_mem (h : Step m label m') {id : NodeId}
    (hmem : id ∈ m'.engine.neighbors.ids) (hnew : id ∉ m.engine.neighbors.ids) :
    ∃ thread address now, label = .performed thread ⟨.upsert id address now, .ok .inserted⟩ := by
  rcases h.engine_cases with ⟨hengine, -⟩ | ⟨thread, a, socket, rfl, hengine⟩
  · exact absurd (hengine ▸ hmem) hnew
  · rw [hengine] at hmem
    rcases introduces?_of_mem socket _ a thread hmem with hold | hintroduces
    · exact absurd hold hnew
    · obtain ⟨address, now, hlabel⟩ := introduces?_eq_some hintroduces
      exact ⟨thread, address, now, hlabel⟩

/-- A node that a step has recorded is in the table. -/
theorem Step.mem_ids_of_upsert {thread : Thread} {id : NodeId} {address : Address} {now : Nat}
    {outcome : Except NeighborError Neighbor.Table.Upsert}
    (h : Step m (.performed thread ⟨.upsert id address now, outcome⟩) m')
    (hdone : ∃ done, outcome = .ok done) : id ∈ m'.engine.neighbors.ids := by
  rcases h.engine_cases with ⟨-, hquiet⟩ | ⟨thread', a, socket, hlabel, hengine⟩
  · exact absurd rfl (hquiet _ _)
  · cases hlabel
    rw [Access.perform] at hengine hdone
    cases hupsert : m.engine.neighbors.upsert id address now with
    | error _ =>
      rw [hupsert] at hdone
      obtain ⟨done, hdone⟩ := hdone
      cases hdone
    | ok result =>
      rw [hupsert] at hengine
      rw [hengine]
      exact Neighbor.Table.mem_ids_upsert hupsert

-- ---------------------------------------------------------------------------
-- What a peer owes
-- ---------------------------------------------------------------------------

namespace Peers

/-- One of the routines that a peer has in hand has a debt to settle: the handling of a
datagram, or a call. -/
def Owes (p : Peers ι) (known : ι → ι → Prop) (i : ι) (m : Machine) (d : Debt ι) : Prop :=
  (m.stage = .looking ∧ m.network.Clears p i known d) ∨
    ∃ c ∈ m.calls, c.rest.Clears p i known d

theorem Owes.mono (h : p.Owes known i m d) (hle : known ≤ known') : p.Owes known' i m d := by
  rcases h with ⟨hlooking, hnetwork⟩ | ⟨c, hc, hrest⟩
  · exact .inl ⟨hlooking, hnetwork.mono hle⟩
  · exact .inr ⟨c, hc, hrest.mono hle⟩

/-- A peer that has nothing in hand owes nothing. -/
theorem Owes.eq_none (h : p.Owes known i m d) (hidle : m.stage = .looking → m.network = .done ())
    (hreturned : ∀ c ∈ m.calls, c.rest = .done ()) : d = .none := by
  rcases h with ⟨hlooking, hnetwork⟩ | ⟨c, hc, hrest⟩
  · rw [hidle hlooking] at hnetwork
    exact hnetwork
  · rw [hreturned c hc] at hrest
    exact hrest

/-- A debt is there after a step, or the step was an access that has changed it. -/
theorem Owes.step (h : p.Owes known i m d) (hd : d ≠ .none) (hle : known ≤ known')
    (hstep : Step m label m')
    (htruthful : ∀ thread q, label = .performed thread q → p.Truthful known' i q.access q.answer) :
    p.Owes known' i m' d ∨ ∃ thread q d', label = .performed thread q ∧
      d.Becomes p known' i q.access q.answer d' ∧ p.Owes known' i m' d' := by
  -- a routine that has nothing left to do has no debt
  have hcalls : m.network = .done () → m'.calls = m.calls → p.Owes known' i m' d := by
    intro hdone hsame
    rcases h with ⟨-, hnetwork⟩ | ⟨c, hc, hrest⟩
    · rw [hdone] at hnetwork
      exact absurd hnetwork hd
    · exact .inr ⟨c, hsame ▸ hc, hrest.mono hle⟩
  cases hstep with
  | housekeeping due now stage running idle => exact .inl (hcalls idle rfl)
  | receive datagram origin now stage idle => exact .inl (hcalls idle rfl)
  | lapse stage idle => exact .inl (hcalls idle rfl)
  | finish stage stopped idle => exact .inl (hcalls idle rfl)
  | call c =>
    rcases h with ⟨hlooking, hnetwork⟩ | ⟨c', hc', hrest⟩
    · exact .inl (.inl ⟨hlooking, hnetwork.mono hle⟩)
    · exact .inl (.inr ⟨c', List.mem_append_left _ hc', hrest.mono hle⟩)
  | @leave before after c hpending join =>
    rcases h with ⟨hlooking, hnetwork⟩ | ⟨c', hc', hrest⟩
    · exact .inl (.inl ⟨hlooking, hnetwork.mono hle⟩)
    · rw [hpending, List.mem_append, List.mem_cons] at hc'
      rcases hc' with hmem | rfl | hmem
      · exact .inl (.inr ⟨c', List.mem_append_left _ hmem, hrest.mono hle⟩)
      · exact absurd hrest hd
      · exact .inl (.inr ⟨c', List.mem_append_right _ hmem, hrest.mono hle⟩)
  | network socket work =>
    rcases h with ⟨hlooking, hnetwork⟩ | howing
    · rw [work] at hnetwork
      obtain ⟨d', hbecomes, hnext⟩ := hnetwork.2 known' _ hle (htruthful _ _ rfl)
      exact .inr ⟨_, _, d', rfl, hbecomes, .inl ⟨hlooking, hnext⟩⟩
    · obtain ⟨c, hc, hrest⟩ := howing
      exact .inl (.inr ⟨c, hc, hrest.mono hle⟩)
  | @application before after c a next socket hpending =>
    rcases h with ⟨hlooking, hnetwork⟩ | ⟨c', hc', hrest⟩
    · exact .inl (.inl ⟨hlooking, hnetwork.mono hle⟩)
    · rw [hpending, List.mem_append, List.mem_cons] at hc'
      rcases hc' with hmem | rfl | hmem
      · exact .inl (.inr ⟨c', List.mem_append_left _ hmem, hrest.mono hle⟩)
      · obtain ⟨d', hbecomes, hnext⟩ := hrest.2 known' _ hle (htruthful _ _ rfl)
        exact .inr ⟨_, _, d', rfl, hbecomes, .inr ⟨_, List.mem_append_cons_self, hnext⟩⟩
      · exact .inl (.inr ⟨c', List.mem_append_right _ (List.mem_cons_of_mem _ hmem),
          hrest.mono hle⟩)

/-- Who owes a greeting still owes it after a step, unless the step was to send it. -/
theorem Owes.greet_step (h : p.Owes known i m (.greet j)) (hle : known ≤ known')
    (hstep : Step m label m')
    (htruthful : ∀ thread q, label = .performed thread q → p.Truthful known' i q.access q.answer) :
    p.Owes known' i m' (.greet j) ∨ ∃ thread succeeded,
      label = .performed thread ⟨.send (p.greeting i) (p.address j), succeeded⟩ := by
  rcases h.step nofun hle hstep htruthful with
    hkept | ⟨thread, ⟨a, answer⟩, d', rfl, hbecomes, howes⟩
  · exact .inl hkept
  · cases a with
    | send frame target =>
      rcases hbecomes with rfl | ⟨j', hj', -, rfl, rfl⟩
      · exact .inl howes
      · cases hj'
        exact .inr ⟨thread, answer, rfl⟩
    | upsert id address now =>
      obtain ⟨j', -, hdebt, -⟩ := hbecomes
      rcases hdebt with hdebt | hdebt
      · cases hdebt
      · cases hdebt
    | _ =>
      cases hbecomes
      exact .inl howes

/-- Who owes it to a peer to enter it still does after a step, unless the step was to do so. -/
theorem Owes.enter_step (h : p.Owes known i m (.enter j)) (hle : known ≤ known')
    (hstep : Step m label m')
    (htruthful : ∀ thread q, label = .performed thread q → p.Truthful known' i q.access q.answer) :
    p.Owes known' i m' (.enter j) ∨ ∃ thread address now outcome,
      label = .performed thread ⟨.upsert (p.id j) address now, outcome⟩ := by
  rcases h.step nofun hle hstep htruthful with
    hkept | ⟨thread, ⟨a, answer⟩, d', rfl, hbecomes, howes⟩
  · exact .inl hkept
  · cases a with
    | send frame target =>
      rcases hbecomes with rfl | ⟨j', hj', -⟩
      · exact .inl howes
      · cases hj'
    | upsert id address now =>
      obtain ⟨j', rfl, hdebt, -⟩ := hbecomes
      rcases hdebt with hdebt | hdebt
      · cases hdebt
      · cases hdebt
        exact .inr ⟨thread, address, now, answer, rfl⟩
    | _ =>
      cases hbecomes
      exact .inl howes

-- ---------------------------------------------------------------------------
-- A sound peer
-- ---------------------------------------------------------------------------

/-- The accesses that record no node. -/
def Unrecording : Access → Prop
  | .upsert _ _ _ => False
  | _ => True

/-- A peer of which every neighbor is a peer at its true address, and every routine settles
its debt. Nodes are recorded by calls and by the handling of datagrams only. -/
structure Sound (p : Peers ι) (known : ι → ι → Prop) (i : ι) (m : Machine) : Prop where
  setup : p.IsSetup i m.engine.setup
  seats : ∀ seat ∈ m.engine.neighbors.seats, ∃ j, known i j ∧ seat = (p.id j, p.address j)
  network : ∃ d, m.network.Clears p i known d
  upkeep : m.stage = .looking ∨ m.network.All Unrecording
  calls : ∀ c ∈ m.calls, ∃ d, c.rest.Clears p i known d

theorem Sound.mono (h : p.Sound known i m) (hle : known ≤ known') : p.Sound known' i m where
  setup := h.setup
  seats seat hseat := by
    obtain ⟨j, hknown, hj⟩ := h.seats seat hseat
    exact ⟨j, hle i j hknown, hj⟩
  network := by
    obtain ⟨d, hclears⟩ := h.network
    exact ⟨d, hclears.mono hle⟩
  upkeep := h.upkeep
  calls c hc := by
    obtain ⟨d, hclears⟩ := h.calls c hc
    exact ⟨d, hclears.mono hle⟩

theorem Sound.isEntry (h : p.Sound known i m) {n : Neighbor}
    (hn : n ∈ m.engine.neighbors.entries) : p.IsEntry known i n := by
  obtain ⟨j, hknown, hj⟩ := h.seats (n.id, n.address) (List.mem_map_of_mem hn)
  exact ⟨j, hknown, congrArg Prod.fst hj, congrArg Prod.snd hj⟩

/-- An access is made by a routine that settles its debt. If it records a node, then the peer
has in hand what is left of that routine. -/
theorem Sound.made (h : p.Sound known i m) {thread : Thread} {q : Performed}
    (hstep : Step m (.performed thread q) m') :
    ∃ (next : q.access.Answer → Routine Unit) (d : Debt ι),
      (Routine.access q.access next).Clears p i known d ∧
      (Unrecording q.access ∨ ∀ known' d', (next q.answer).Clears p i known' d' →
        p.Owes known' i m' d') := by
  cases hstep with
  | @network a next socket work =>
    obtain ⟨d, hclears⟩ := h.network
    have hupkeep := h.upkeep
    rw [work] at hclears hupkeep
    refine ⟨next, d, hclears, ?_⟩
    rcases hupkeep with hlooking | hunrecording
    · exact .inr fun _ _ hnext => .inl ⟨hlooking, hnext⟩
    · exact .inl hunrecording.1
  | @application before after c a next socket hpending =>
    obtain ⟨d, hclears⟩ := h.calls _ (hpending ▸ List.mem_append_cons_self)
    exact ⟨next, d, hclears, .inr fun _ _ hnext => .inr ⟨_, List.mem_append_cons_self, hnext⟩⟩

theorem Sound.permits (h : p.Sound known i m) {thread : Thread} {q : Performed}
    (hstep : Step m (.performed thread q) m') : p.Permits known i q.access := by
  obtain ⟨next, d, hclears, -⟩ := h.made hstep
  exact hclears.1

/-- Who was entered just now is owed a greeting, unless it knows the peer that entered it. -/
theorem Sound.inserted (h : p.Sound known i m) (hle : known ≤ known') {thread : Thread}
    {id : NodeId} {address : Address} {now : Nat}
    (hstep : Step m (.performed thread ⟨.upsert id address now, .ok .inserted⟩) m') :
    ∃ j, id = p.id j ∧ (p.Owes known' i m' (.greet j) ∨ known' j i) := by
  obtain ⟨next, d, hclears, hdone⟩ := h.made hstep
  obtain ⟨d', ⟨j, hid, -, hleft⟩, hnext⟩ := hclears.2 known' _ hle ⟨_, rfl⟩
  refine ⟨j, hid, ?_⟩
  rcases hleft with rfl | ⟨-, hknown⟩
  · rcases hdone with hunrecording | howes
    · exact hunrecording.elim
    · exact .inl (howes _ _ hnext)
  · exact .inr (hknown rfl)

theorem unrecording_upkeep (s : Setup) (due : Bool) (now : Nat) :
    (upkeep s due now).All Unrecording := by
  refine (all_upkeep s due now).mono fun a ha => ?_
  rcases ha with hsending | ⟨now, rfl⟩
  · cases a with
    | upsert id address now => exact hsending
    | _ => trivial
  · trivial

/-- A peer stays sound over a step, if its neighbors are peers at their true addresses after
it, and what it begins settles its debts. -/
theorem Sound.step (h : p.Sound known i m) (hle : known ≤ known') (hstep : Step m label m')
    (htruthful : ∀ thread q, label = .performed thread q → p.Truthful known' i q.access q.answer)
    (hseats : ∀ seat ∈ m'.engine.neighbors.seats,
      ∃ j, known' i j ∧ seat = (p.id j, p.address j))
    (hcall : ∀ c, label = .called c → c.IsFor p)
    (hreceive : ∀ bytes origin now, label = .received bytes origin now →
      ∃ d, (handle m.engine.setup bytes origin now).Clears p i known' d) :
    p.Sound known' i m' := by
  have hsetup : p.IsSetup i m'.engine.setup := hstep.setup_eq ▸ h.setup
  obtain ⟨-, -, hnetwork, hupkeep, hcalls⟩ := h.mono hle
  cases hstep with
  | housekeeping due now stage running idle =>
    exact ⟨hsetup, hseats, ⟨.none, clears_upkeep hsetup due now⟩,
      .inr (unrecording_upkeep _ due now), hcalls⟩
  | receive bytes origin now stage idle =>
    exact ⟨hsetup, hseats, hreceive _ _ _ rfl, .inl rfl, hcalls⟩
  | lapse stage idle => exact ⟨hsetup, hseats, hnetwork, .inl rfl, hcalls⟩
  | finish stage stopped idle =>
    refine ⟨hsetup, hseats, hnetwork, .inr ?_, hcalls⟩
    dsimp only
    rw [idle]
    trivial
  | call c =>
    refine ⟨hsetup, hseats, hnetwork, hupkeep, fun c' hc' => ?_⟩
    rcases List.mem_append.mp hc' with hold | hnew
    · exact hcalls c' hold
    · cases List.mem_singleton.mp hnew
      exact ⟨.none, clears_begun h.setup (hcall c rfl)⟩
  | leave hpending join =>
    exact ⟨hsetup, hseats, hnetwork, hupkeep, forall_mem_remove (hpending ▸ hcalls)⟩
  | network socket work =>
    obtain ⟨d, hclears⟩ := h.network
    rw [work] at hclears hupkeep
    obtain ⟨d', -, hnext⟩ := hclears.2 known' _ hle (htruthful _ _ rfl)
    exact ⟨hsetup, hseats, ⟨d', hnext⟩, hupkeep.imp_right fun hall => hall.2 _, hcalls⟩
  | @application before after c a next socket hpending =>
    obtain ⟨d, hclears⟩ := h.calls _ (hpending ▸ List.mem_append_cons_self)
    obtain ⟨d', -, hnext⟩ := hclears.2 known' _ hle (htruthful _ _ rfl)
    exact ⟨hsetup, hseats, hnetwork, hupkeep, forall_mem_replace (hpending ▸ hcalls) ⟨d', hnext⟩⟩

-- ---------------------------------------------------------------------------
-- Room for all
-- ---------------------------------------------------------------------------

variable [Fintype ι]

/-- A table that has a peer at most once, not the peer whose table it is, and room for all
others. -/
structure Tidy (p : Peers ι) (i : ι) (t : Neighbor.Table) : Prop where
  nodup : t.ids.Nodup
  own_not_mem : p.id i ∉ t.ids
  room : Fintype.card ι ≤ t.capacity + 1

/-- A peer that is not in the table yet finds room in it: the table has neither that peer nor
the one whose table it is. -/
theorem Tidy.length_lt {t : Neighbor.Table} (h : p.Tidy i t)
    (hpeers : ∀ id ∈ t.ids, ∃ k, id = p.id k) (hne : j ≠ i) (hnew : p.id j ∉ t.ids) :
    t.length < t.capacity := by
  classical
  have hnodup : (p.id i :: p.id j :: t.ids).Nodup := by
    rw [List.nodup_cons, List.nodup_cons]
    refine ⟨fun hmem => ?_, hnew, h.nodup⟩
    rcases List.mem_cons.mp hmem with heq | hmem
    · exact hne (p.id_injective heq.symm)
    · exact h.own_not_mem hmem
  have hsubset : (p.id i :: p.id j :: t.ids).toFinset ⊆ Finset.univ.image p.id := by
    intro id hid
    have hpeer : ∃ k, id = p.id k := by
      rcases List.mem_cons.mp (List.mem_toFinset.mp hid) with rfl | hid
      · exact ⟨i, rfl⟩
      · rcases List.mem_cons.mp hid with rfl | hid
        · exact ⟨j, rfl⟩
        · exact hpeers id hid
    obtain ⟨k, rfl⟩ := hpeer
    exact Finset.mem_image_of_mem _ (Finset.mem_univ k)
  have hcard := (Finset.card_le_card hsubset).trans Finset.card_image_le
  rw [List.toFinset_card_of_nodup hnodup, Finset.card_univ, List.length_cons, List.length_cons,
    t.length_ids] at hcard
  have hroom := h.room
  omega

/-- What the accesses of a peer give is true. -/
theorem Sound.truthful (h : p.Sound known i m) (htidy : p.Tidy i m.engine.neighbors)
    (socket : Socket) {a : Access} (hpermits : p.Permits known i a) :
    p.Truthful known i a (a.perform socket m.engine).1 := by
  cases a with
  | snapshot => exact fun n hn => h.isEntry hn
  | pick rand => exact fun n hn => h.isEntry (List.mem_of_getElem? hn)
  | upsert id address now =>
    obtain ⟨j, hne, rfl, rfl⟩ := hpermits
    rw [Access.perform]
    rcases m.engine.neighbors.upsert_cases (p.id j) (p.address j) now with
      ⟨-, hok⟩ | ⟨hnew, hfull, -⟩ | ⟨-, -, hok⟩
    · rw [hok]
      exact ⟨_, rfl⟩
    · refine absurd (htidy.length_lt (fun id hid => ?_) hne hnew) (Nat.not_lt_of_le hfull)
      obtain ⟨n, hn, rfl⟩ := List.mem_map.mp hid
      obtain ⟨k, -, hk, -⟩ := h.isEntry hn
      exact ⟨k, hk⟩
    · rw [hok]
      exact ⟨_, rfl⟩
  | _ => trivial

/-- So what a step of a peer gives is true. -/
theorem Sound.truthful_step (h : p.Sound known i m) (htidy : p.Tidy i m.engine.neighbors)
    (hle : known ≤ known') (hstep : Step m label m') (thread : Thread) (q : Performed)
    (hlabel : label = .performed thread q) : p.Truthful known' i q.access q.answer := by
  subst hlabel
  have hpermits := h.permits hstep
  rcases hstep.engine_cases with ⟨-, hquiet⟩ | ⟨thread', a, socket, hlabel, -⟩
  · exact absurd rfl (hquiet _ _)
  · cases hlabel
    exact (h.truthful htidy socket hpermits).mono hle

/-- The neighbors after a step are peers at their true addresses. -/
theorem Sound.seats_step (h : p.Sound known i m) (htidy : p.Tidy i m.engine.neighbors)
    (hle : known ≤ known') (hstep : Step m label m')
    (hknown : ∀ j, p.id j ∈ m'.engine.neighbors.ids → known' i j) {seat : NodeId × Address}
    (hseat : seat ∈ m'.engine.neighbors.seats) :
    ∃ j, known' i j ∧ seat = (p.id j, p.address j) := by
  have hold : seat ∈ m.engine.neighbors.seats →
      ∃ j, known' i j ∧ seat = (p.id j, p.address j) := by
    intro hmem
    obtain ⟨j, hj, heq⟩ := h.seats seat hmem
    exact ⟨j, hle i j hj, heq⟩
  rcases hstep.engine_cases with ⟨hengine, -⟩ | ⟨thread, a, socket, rfl, hengine⟩
  · exact hold (hengine ▸ hseat)
  · have hperformed := hseat
    rw [hengine] at hperformed
    rcases mem_seats_perform socket htidy.nodup hperformed with hmem | ⟨id, address, now, rfl, rfl⟩
    · exact hold hmem
    · obtain ⟨j, -, rfl, rfl⟩ := h.permits hstep
      exact ⟨j, hknown j (Neighbor.Table.mem_ids_of_mem_seats hseat), rfl⟩

end Peers

end AffineSwarm.Engine
