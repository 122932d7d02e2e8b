import AffineSwarm.Proofs.Engine.Delivery
import AffineSwarm.Proofs.Engine.Introduction
import AffineSwarm.Proofs.Engine.Justified

/-!
# Authenticity

On a hostile network, engines that share a key learn from each other only what they said:
every event and every neighbor comes from a frame that an engine with that identity sent,
and a migrated formula is one that the application of such an engine passed to it.

The invariant (`Authentic`) is that all accesses that were made are justified, and so are
all that any routine may still make. The step that needs an argument is the receipt of a
datagram: a message in it is one that an engine sent, because no frame has two meanings
(`Authentic.sent_of_deliverable`).
-/

namespace AffineSwarm.Engine

-- ---------------------------------------------------------------------------
-- The invariant
-- ---------------------------------------------------------------------------

variable {ι : Type} [DecidableEq ι] {engines : ι → Engine} {hash : KeyedHash} {w : Swarm ι}

/-- Whatever was done and whatever may be done next is justified by the history. -/
structure Authentic (engines : ι → Engine) (hash : KeyedHash) (w : Swarm ι) : Prop where
  hash_eq : ∀ i, (engines i).setup.hash = hash
  setup_eq : ∀ i, (w.machines i).engine.setup = (engines i).setup
  network : ∀ i, (w.machines i).network.All (Justified engines hash w.history i .network)
  calls : ∀ i, ∀ c ∈ (w.machines i).calls,
    c.rest.All (Justified engines hash w.history i (.application c.call))
  history : ∀ i thread p, (i, .performed thread p) ∈ w.history →
    Justified engines hash w.history i thread p.access

omit [DecidableEq ι] in
/-- A message in a datagram that the network may deliver is one that an engine sent. -/
theorem Authentic.sent_of_deliverable (h : Authentic engines hash w) {datagram : List UInt8}
    {m : Message} (hnetwork : Deliverable hash w.history datagram)
    (hdecode : Frame.decode hash datagram = .ok m) :
    ∃ j, Authored engines w.history j m ∧ w.history.Sent j (Frame.encode hash m) := by
  obtain ⟨rfl, -⟩ := Frame.decode_eq_ok_iff.mp hdecode
  obtain ⟨j, hsent⟩ : ∃ j, w.history.Sent j (Frame.encode hash m) := by
    cases hnetwork with
    | copied sent => exact ⟨_, sent⟩
    | injected known => exact known _ rfl
  obtain ⟨thread, target, hmem⟩ := hsent
  obtain ⟨m', hframe, hauthored⟩ := h.history j thread _ hmem
  -- the engine may have meant another message, but a frame has one meaning
  rw [hframe] at hdecode
  cases Frame.eq_of_decode_encode hdecode
  exact ⟨j, hauthored, thread, target, hmem⟩

omit [DecidableEq ι] in
theorem authentic_starting (hhash : ∀ i, (engines i).setup.hash = hash) :
    Authentic engines hash (.starting engines) where
  hash_eq := hhash
  setup_eq _ := rfl
  network _ := trivial
  calls _ := nofun
  history _ _ _ := nofun

/-- A step of one engine, for which three things are to be shown: that what its threads
have left is justified, and that an access that it makes is. -/
theorem Authentic.after (h : Authentic engines hash w) {i : ι} {label : Label} {m : Machine}
    (hsetup : m.engine.setup = (engines i).setup)
    (hnetwork : m.network.All
      (Justified engines hash (w.history ++ [(i, label)]) i .network))
    (hcalls : ∀ c ∈ m.calls, c.rest.All
      (Justified engines hash (w.history ++ [(i, label)]) i (.application c.call)))
    (hlabel : ∀ thread p, label = .performed thread p →
      Justified engines hash w.history i thread p.access) :
    Authentic engines hash (w.after i label m) where
  hash_eq := h.hash_eq
  setup_eq j := by
    by_cases hj : j = i
    · subst hj
      simpa only [Swarm.after, if_true] using hsetup
    · simpa only [Swarm.after, if_neg hj] using h.setup_eq j
  network j := by
    by_cases hj : j = i
    · subst hj
      simpa only [Swarm.after, if_true] using hnetwork
    · simp only [Swarm.after, if_neg hj]
      exact (h.network j).mono fun _ ha => ha.mono _
  calls j := by
    by_cases hj : j = i
    · subst hj
      simpa only [Swarm.after, if_true] using hcalls
    · simp only [Swarm.after, if_neg hj]
      exact fun c hc => (h.calls j c hc).mono fun _ ha => ha.mono _
  history j thread p hmem := by
    rcases List.mem_append.mp hmem with hold | hnew
    · exact (h.history j thread p hold).mono _
    · cases List.mem_singleton.mp hnew
      exact (hlabel thread p rfl).mono _

/-- Every step of an engine is justified, if what it receives is what the network may
deliver. -/
theorem Authentic.step (h : Authentic engines hash w) {i : ι} {label : Label} {m : Machine}
    (hstep : Step (w.machines i) label m)
    (hdeliverable : ∀ datagram origin now, label = .received datagram origin now →
      Deliverable hash w.history datagram) :
    Authentic engines hash (w.after i label m) := by
  have hsetup := h.setup_eq i
  have hnetwork := (h.network i).mono fun _ ha => ha.mono [(i, label)]
  have hcalls : ∀ c ∈ (w.machines i).calls, c.rest.All
      (Justified engines hash (w.history ++ [(i, label)]) i (.application c.call)) :=
    fun c hc => (h.calls i c hc).mono fun _ ha => ha.mono _
  cases hstep with
  | housekeeping due now stage running idle =>
    refine h.after hsetup ?_ hcalls (by rintro _ _ ⟨⟩)
    have hupkeep := all_upkeep (engines i).setup due now
    rw [hsetup]
    exact hupkeep.mono fun _ ha => ha.justified (h.hash_eq i)
  | receive datagram origin now stage idle =>
    refine h.after hsetup ?_ hcalls (by rintro _ _ ⟨⟩)
    have hhandle := all_handle (engines i).setup datagram origin now
    rw [hsetup]
    refine hhandle.mono fun a ha => ?_
    rcases ha with ⟨counter, rfl⟩ | ⟨m, hdecode, hforeign, hreacts⟩
    · trivial
    · rw [h.hash_eq i, Frame.decode_take_receiveLimit] at hdecode
      obtain ⟨j, hauthored, hsent⟩ :=
        h.sent_of_deliverable (hdeliverable datagram origin now rfl) hdecode
      exact (hreacts.justified (h.hash_eq i) hforeign (Frame.decode_eq_ok_iff.mp hdecode).2
        hauthored hsent).mono _
  | lapse stage idle => exact h.after hsetup hnetwork hcalls (by rintro _ _ ⟨⟩)
  | finish stage stopped idle => exact h.after hsetup hnetwork hcalls (by rintro _ _ ⟨⟩)
  | call c =>
    refine h.after hsetup hnetwork (fun c' hc' => ?_) (by rintro _ _ ⟨⟩)
    rcases List.mem_append.mp hc' with hold | hnew
    · exact hcalls c' hold
    · cases List.mem_singleton.mp hnew
      have hbegun := all_begun (w.machines i).engine c
      rw [hsetup] at hbegun
      exact hbegun.mono fun _ ha => ha.justified (h.hash_eq i)
        (List.mem_append_right _ (List.mem_singleton.mpr rfl))
  | @leave before after c hpending join =>
    exact h.after hsetup hnetwork (forall_mem_remove (hpending ▸ hcalls)) (by rintro _ _ ⟨⟩)
  | network socket work =>
    have hwork := h.network i
    rw [work] at hnetwork hwork
    refine h.after ((setup_perform ..).trans hsetup) (hnetwork.2 _) hcalls ?_
    rintro _ _ ⟨⟩
    exact hwork.1
  | @application before after c a next socket hpending =>
    have hmem : (⟨c, .access a next⟩ : Pending) ∈ (w.machines i).calls := by
      rw [hpending]
      exact List.mem_append_right _ List.mem_cons_self
    refine h.after ((setup_perform ..).trans hsetup) hnetwork
      (forall_mem_replace (hpending ▸ hcalls) ((hcalls _ hmem).2 _)) ?_
    rintro _ _ ⟨⟩
    exact (h.calls i _ hmem).1

/-- Every state that a swarm reaches is authentic, by induction on its steps. -/
theorem authentic_of_reachable (hhash : ∀ i, (engines i).setup.hash = hash)
    (reachable : Swarm.Reachable hash (.starting engines) w) : Authentic engines hash w := by
  induction reachable with
  | refl => exact authentic_starting hhash
  | step _ hstep hdeliverable ih => exact ih.step hstep hdeliverable

-- ---------------------------------------------------------------------------
-- The run of each engine
-- ---------------------------------------------------------------------------

theorem Swarm.labels_after (w : Swarm ι) (i j : ι) (label : Label) (m : Machine) :
    (w.after i label m).labels j = if j = i then w.labels j ++ [label] else w.labels j := by
  rw [labels, after, filterMap_snoc, labels]
  by_cases hj : i = j
  · simp only [if_pos hj, if_pos hj.symm, Option.toList_some]
  · simp only [if_neg hj, if_neg (Ne.symm hj), Option.toList_none, List.append_nil]

/-- In a swarm, each engine does one of its runs. -/
theorem run_of_reachable (reachable : Swarm.Reachable hash (.starting engines) w) (i : ι) :
    Run (.starting (engines i)) (w.labels i) (w.machines i) := by
  induction reachable with
  | refl => exact .nil
  | @step w j label m _ hstep _ ih =>
    rw [Swarm.labels_after]
    by_cases hi : i = j
    · subst hi
      simpa only [Swarm.after, if_true] using ih.snoc hstep
    · simpa only [Swarm.after, if_neg hi] using ih

theorem mem_history_of_mem_labels {i : ι} {label : Label} (h : label ∈ w.labels i) :
    (i, label) ∈ w.history := by
  obtain ⟨⟨j, label'⟩, hmem, heq⟩ := List.mem_filterMap.mp h
  simp only at heq
  split at heq
  · rename_i hj
    cases hj
    cases heq
    exact hmem
  · cases heq

-- ---------------------------------------------------------------------------
-- Authenticity
-- ---------------------------------------------------------------------------

/-- **Gossip is authentic on a hostile network.** Engines that share a key are started and
do whatever they do, on a network that delivers copies of frames and bytes of its own but
cannot make tags. Then every event that an engine has queued, or that its application took,
comes from a frame that an engine with the sender's identity sent before; a formula has the
gene and the fitness of one that the application of that engine passed to it, and no
feedback; and no event has the identity of the engine that has it. Every node in a table
was put there by the application as a static neighbor, or an engine with that identity has
sent a frame that names it. -/
theorem gossip_authentic (key : AuthKey) (engines : ι → Engine) (w : Swarm ι)
    (started : ∀ i, ∃ config opening, config.key = key ∧ start config opening = .ok (engines i))
    (reachable : Swarm.Reachable key.keyedHash (.starting engines) w) :
    (∀ i, ∀ event ∈ taken (w.labels i) ++ (w.machines i).engine.events.toList,
      Genuine engines key.keyedHash w.history event ∧
        event.sender ≠ (engines i).setup.nodeId) ∧
    (∀ i, ∀ n ∈ (w.machines i).engine.neighbors.entries,
      (∃ address now, introducer? (w.labels i) n.id =
        some (.application (.addStaticNeighbor address n.id now))) ∨
      Known engines key.keyedHash w.history n.id) := by
  have hhash : ∀ i, (engines i).setup.hash = key.keyedHash := by
    intro i
    obtain ⟨config, opening, rfl, hstart⟩ := started i
    obtain ⟨localAddress, heq⟩ := start_eq_ok hstart
    rw [heq, fresh]
  have h : Authentic engines key.keyedHash w := authentic_of_reachable hhash reachable
  constructor
  · intro i event hevent
    obtain ⟨config, opening, -, hstart⟩ := started i
    rw [← ((Faithful.starting hstart).run (run_of_reachable reachable i)).accepted_eq] at hevent
    obtain ⟨thread, hmem⟩ := mem_of_mem_accepted hevent
    exact h.history i thread _ (mem_history_of_mem_labels hmem)
  · intro i n hn
    obtain ⟨config, opening, -, hstart⟩ := started i
    have hempty : (engines i).neighbors.ids = [] := by
      obtain ⟨localAddress, heq⟩ := start_eq_ok hstart
      rw [heq]
      rfl
    obtain ⟨thread, hthread⟩ := introducer?_of_mem hempty (run_of_reachable reachable i)
      (List.mem_map_of_mem hn : n.id ∈ _)
    obtain ⟨address, now, hmem⟩ := mem_of_introducer? hthread
    have hjustified := h.history i thread _ (mem_history_of_mem_labels hmem)
    cases thread with
    | network => exact .inr hjustified
    | application c =>
      obtain ⟨address, now, rfl⟩ := hjustified
      exact .inl ⟨address, now, hthread⟩

/-- Node 1 greets everybody, and node 2 hears it. -/
theorem gossip_authentic_of_greeting :
    let config : Bool → EngineConfig := fun i => .standard (if i then 2 else 1) 5000 ⟨[]⟩
    let engines : Bool → Engine := fun i => fresh (config i) (.anyHost 5000)
    let hash := AuthKey.keyedHash ⟨[]⟩
    (∀ i, ∃ config opening, config.key = ⟨[]⟩ ∧ start config opening = .ok (engines i)) ∧
    ∃ w, Swarm.Reachable hash (.starting engines) w ∧
      (w.machines true).engine.events.toList = [.hello 1 (.anyHost 7)] ∧
      Genuine engines hash w.history (.hello 1 (.anyHost 7)) := by
  intro config engines hash
  have started : ∀ i, ∃ config opening, config.key = ⟨[]⟩ ∧
      start config opening = .ok (engines i) := by
    intro i
    refine ⟨config i, ⟨.ok (), .ok (), .ok (), .ok (.anyHost 5000), .ok ()⟩, rfl, ?_⟩
    cases i <;> rfl
  let greeting := (engines false).setup.greeting
  have hdecode : Frame.decode hash greeting = .ok (.hello 1) :=
    Frame.decode_encode hash (m := .hello 1) trivial
  let socket : Socket := fun _ _ => true
  -- node 1 sends its greeting to the broadcast address, while node 2 does its housekeeping
  have h1 : Swarm.Reachable hash (.starting engines) _ :=
    .step (i := false) .refl (.housekeeping true 0 rfl rfl rfl) nofun
  have h2 := h1.step (i := false) (.network socket rfl) nofun
  have h3 := h2.step (i := true) (.housekeeping false 0 rfl rfl rfl) nofun
  have h4 := h3.step (i := true) (.network socket rfl) nofun
  have h5 := h4.step (i := true) (.network socket rfl) nofun
  -- a copy of the greeting arrives at node 2 with another origin
  have h6 := h5.step (i := true) (.receive greeting (.anyHost 7) 0 rfl rfl) (by
    rintro _ _ _ ⟨⟩
    exact .copied (i := false) ⟨.network, .broadcast 5000, List.mem_append_left _
      (List.mem_append_left _ (List.mem_append_left _ (List.mem_append_right _
        (List.mem_singleton.mpr rfl))))⟩)
  have hhandle := handle_of_decode (s := (engines true).setup) hdecode nofun (.anyHost 7) 0
  have h7 := h6.step (i := true) (.network socket hhandle) nofun
  -- node 2 enters node 1, greets it back and queues the event
  have h8 := h7.step (i := true) (.network socket rfl) nofun
  have h9 := h8.step (i := true) (.network socket rfl) nofun
  have h10 := h9.step (i := true) (.network socket rfl) nofun
  have h11 := h10.step (i := true) (.network socket rfl) nofun
  have hqueued := List.mem_singleton.mpr (rfl : Event.hello 1 (.anyHost 7) = _)
  have hall := (gossip_authentic ⟨[]⟩ engines _ started h11).1 true
  exact ⟨started, _, h11, rfl, (hall _ (List.mem_append_right _ hqueued)).1⟩

end AffineSwarm.Engine
