import AffineSwarm.Proofs.Engine.Credit
import AffineSwarm.Proofs.Engine.Roster

/-!
# Whom an acknowledgement refreshes

An acknowledgement does not name its sender. It is put down to the address from which it
came, and of the neighbors that the table has at that address only the first is refreshed:
the one that was entered before the others. Nothing else in the table changes, nothing is
queued and nothing is sent.

Where no two neighbors share the address, that is the neighbor at the address. Where some
do, all but one of them can be evicted although they acknowledge.
-/

namespace AffineSwarm

namespace Neighbor.Table

/-- What changing the first entry that passes a test does to the entry at a place. -/
theorem getElem?_modifyFirst (test : Neighbor → Bool) (change : Neighbor → Neighbor)
    (entries : List Neighbor) (i : Nat) :
    (modifyFirst test change entries)[i]? = entries[i]?.map fun n =>
      if test n ∧ ∀ earlier ∈ entries.take i, ¬ test earlier then change n else n := by
  induction entries generalizing i with
  | nil => rfl
  | cons n rest ih =>
    rw [modifyFirst]
    by_cases htest : test n = true
    · rw [if_pos htest]
      cases i with
      | zero => simp [htest]
      | succ i => simp [htest]
    · rw [if_neg htest]
      cases i with
      | zero => simp [htest]
      | succ i => simp [ih, htest]

end Neighbor.Table

namespace Engine

variable {s : Setup} {datagram : List UInt8} {status : UInt8} {origin : Address} {now : Nat}

/-- An acknowledgement is counted, and refreshes an address. -/
theorem handle_ack (hdecode : Frame.decode s.hash datagram = .ok (.ack status))
    (origin : Address) (now : Nat) :
    handle s datagram origin now =
      .access (.count .datagramsReceived 1) fun _ =>
        .access (.count .acksReceived 1) fun _ => .access (.touch origin now) .done :=
  handle_of_decode hdecode nofun origin now

/-- All that an acknowledgement changes are two counters and the table. -/
theorem handleDatagram_ack {e : Engine}
    (hdecode : Frame.decode e.setup.hash datagram = .ok (.ack status)) (socket : Socket)
    (origin : Address) (now : Nat) :
    e.handleDatagram socket datagram origin now =
      { e with
        neighbors := (e.neighbors.touch origin now).2
        stats := (e.stats.add 1 .datagramsReceived).add 1 .acksReceived } := by
  rw [handleDatagram, handle_ack hdecode]
  rfl

/-- **An acknowledgement refreshes the first neighbor at its address.** In every state that an
engine reaches, whatever its threads are doing, an acknowledgement that it handles

* refreshes the entry that has the address and no earlier entry with the address before it, and
  leaves every other entry as it is, also those with the same address;
* so if no two neighbors share the address it refreshes whoever is there;
* credits, of the nodes that were heard from last at the address, the one that has been in the
  table for longest;
* queues no event, sends nothing, and is counted. -/
theorem acknowledgement_refreshes_first (config : EngineConfig) (opening : Opening) (e : Engine)
    (labels : List Label) (m : Machine) (started : start config opening = .ok e)
    (run : Run (.starting e) labels m) (datagram : List UInt8) (status : UInt8)
    (acknowledges : Frame.decode e.setup.hash datagram = .ok (.ack status)) (socket : Socket)
    (origin : Address) (now : Nat) :
    let entries := m.engine.neighbors.entries
    let e' := m.engine.handleDatagram socket datagram origin now
    (∀ i, e'.neighbors.entries[i]? = entries[i]?.map fun n =>
      if n.address = origin ∧ ∀ earlier ∈ entries.take i, earlier.address ≠ origin
      then { n with lastSeen := now, failures := 0 } else n) ∧
    (entries.Pairwise (fun n n' => ¬ (n.address = origin ∧ n'.address = origin)) →
      e'.neighbors.entries = entries.map fun n =>
        if n.address = origin then { n with lastSeen := now, failures := 0 } else n) ∧
    (∀ id, FirstAt labels origin id ↔
      ∃ n, entries.find? (·.address == origin) = some n ∧ n.id = id) ∧
    e'.events = m.engine.events ∧ e'.outbox = m.engine.outbox ∧
      e'.attempts = m.engine.attempts ∧
      e'.stats = (m.engine.stats.add 1 .datagramsReceived).add 1 .acksReceived := by
  intro entries e'
  have h : Registered e.setup config.neighborCapacity labels m :=
    (Registered.starting started).run run
  have hafter : e' = _ :=
    handleDatagram_ack (h.setup_eq ▸ acknowledges) socket origin now
  have hplaces : ∀ i, e'.neighbors.entries[i]? = entries[i]?.map fun n =>
      if n.address = origin ∧ ∀ earlier ∈ entries.take i, earlier.address ≠ origin
      then { n with lastSeen := now, failures := 0 } else n := by
    intro i
    have hplace := Neighbor.Table.getElem?_modifyFirst (·.address == origin)
      (fun n => n.heardAt n.address now) entries i
    simp only [beq_iff_eq] at hplace
    rw [hafter]
    exact hplace
  refine ⟨hplaces, fun hunshared => ?_, fun id => h.recorded.firstAt_iff, ?_⟩
  · refine List.ext_getElem? fun i => ?_
    rw [hplaces i, List.getElem?_map]
    refine Option.map_congr fun n hn => ?_
    -- an entry with the address has none with the address before it
    have hfirst : n.address = origin → ∀ earlier ∈ entries.take i, earlier.address ≠ origin := by
      intro haddress earlier hearlier hsame
      have hlater : n ∈ entries.drop i := List.mem_of_getElem? (i := 0) (by simpa using hn)
      rw [← List.take_append_drop i entries, List.pairwise_append] at hunshared
      exact hunshared.2.2 earlier hearlier n hlater ⟨hsame, haddress⟩
    by_cases haddress : n.address = origin
    · rw [if_pos ⟨haddress, hfirst haddress⟩, if_pos haddress]
    · rw [if_neg fun hboth => haddress hboth.1, if_neg haddress]
  · rw [hafter]
    exact ⟨rfl, rfl, rfl, rfl⟩

/-- Nodes 2 and 3 may both be entered at the address 8, in that order. -/
theorem run_to_shared_address :
    let e := fresh (.standard 1 0 ⟨[]⟩) (.anyHost 7)
    ∃ labels m, Run (.starting e) labels m ∧ m.engine.setup = e.setup ∧
      m.engine.neighbors.entries = [⟨2, .anyHost 8, 0, 0⟩, ⟨3, .anyHost 8, 0, 0⟩] := by
  intro e
  let socket : Socket := fun _ _ => true
  have h1 : Run (.starting e) _ _ := .snoc .nil (.call (.addStaticNeighbor (.anyHost 8) 2 0))
  have h2 := h1.snoc (@Step.application _ [] [] _ _ _ socket rfl)
  have h3 := h2.snoc (@Step.application _ [] [] _ _ _ socket rfl)
  have h4 := h3.snoc (@Step.application _ [] [] _ _ _ socket rfl)
  have h5 := h4.snoc (@Step.leave _ [] [] _ rfl nofun)
  have h6 := h5.snoc (.call (.addStaticNeighbor (.anyHost 8) 3 0))
  have h7 := h6.snoc (@Step.application _ [] [] _ _ _ socket rfl)
  exact ⟨_, _, h7, rfl, rfl⟩

/-- With nodes 2 and 3 at one address, an acknowledgement from there refreshes node 2 and
leaves node 3 as it is. -/
theorem acknowledgement_refreshes_first_of_two :
    let e := fresh (.standard 1 0 ⟨[]⟩) (.anyHost 7)
    start (.standard 1 0 ⟨[]⟩) ⟨.ok (), .ok (), .ok (), .ok (.anyHost 7), .ok ()⟩ = .ok e ∧
    ∃ labels m, Run (.starting e) labels m ∧
      Frame.decode e.setup.hash (e.setup.encode (.ack 0)) = .ok (.ack 0) ∧ ∀ socket now,
      (m.engine.handleDatagram socket (e.setup.encode (.ack 0)) (.anyHost 8)
        now).neighbors.entries = [⟨2, .anyHost 8, now, 0⟩, ⟨3, .anyHost 8, 0, 0⟩] := by
  intro e
  have started : start (.standard 1 0 ⟨[]⟩)
      ⟨.ok (), .ok (), .ok (), .ok (.anyHost 7), .ok ()⟩ = .ok e := rfl
  have hack : Frame.decode e.setup.hash (e.setup.encode (.ack 0)) = .ok (.ack 0) :=
    Frame.decode_encode _ trivial
  obtain ⟨labels, m, hrun, -, hentries⟩ := run_to_shared_address
  refine ⟨started, labels, m, hrun, hack, fun socket now => ?_⟩
  obtain ⟨hplaces, -⟩ :=
    acknowledgement_refreshes_first _ _ e labels m started hrun _ 0 hack socket (.anyHost 8) now
  refine List.ext_getElem? fun i => ?_
  rw [hplaces i, hentries]
  match i with
  | 0 => rfl
  | 1 => rfl
  | i + 2 => rfl

/-- An acknowledgement does not refresh every neighbor at its address. With nodes 2 and 3 at one
address, one that comes from there just when they would become stale leaves node 3 stale: it is
evicted although its address keeps acknowledging. -/
theorem acknowledgement_misses_second :
    let e := fresh (.standard 1 0 ⟨[]⟩) (.anyHost 7)
    ∃ labels m, Run (.starting e) labels m ∧
      Frame.decode e.setup.hash (e.setup.encode (.ack 0)) = .ok (.ack 0) ∧
      (∀ n ∈ m.engine.neighbors.entries, n.address = .anyHost 8) ∧
      ∀ socket,
        let now := e.setup.staleAfter + 1
        let e' := m.engine.handleDatagram socket (e.setup.encode (.ack 0)) (.anyHost 8) now
        ¬ (∀ n ∈ e'.neighbors.entries, n.address = .anyHost 8 →
          n.lastSeen = now ∧ n.failures = 0) ∧
        (e'.neighbors.evictStale now e.setup.staleAfter).2.ids = [2] := by
  intro e
  have hack : Frame.decode e.setup.hash (e.setup.encode (.ack 0)) = .ok (.ack 0) :=
    Frame.decode_encode _ trivial
  obtain ⟨labels, m, hrun, hsetup, hentries⟩ := run_to_shared_address
  refine ⟨labels, m, hrun, hack, by simp [hentries], fun socket => ?_⟩
  intro now e'
  have hdecode : Frame.decode m.engine.setup.hash (e.setup.encode (.ack 0)) = .ok (.ack 0) := by
    rw [hsetup]
    exact hack
  have hafter : e'.neighbors.entries = [⟨2, .anyHost 8, now, 0⟩, ⟨3, .anyHost 8, 0, 0⟩] := by
    rw [show e' = _ from handleDatagram_ack hdecode socket (.anyHost 8) now]
    simp only [Neighbor.Table.touch, hentries]
    rfl
  constructor
  · rw [hafter]
    intro hall
    have hsecond := (hall ⟨3, .anyHost 8, 0, 0⟩ (by simp) rfl).1
    exact absurd hsecond (by decide)
  · simp [Neighbor.Table.ids, Neighbor.Table.evictStale, Neighbor.isStale, hafter, now]

end Engine

end AffineSwarm
