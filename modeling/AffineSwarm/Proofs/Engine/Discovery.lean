import AffineSwarm.Engine.Network
import AffineSwarm.Proofs.Engine.Debts
import AffineSwarm.Proofs.Engine.Roster

/-!
# Discovery is mutual

Peers on a network that loses and repeats nothing. Whenever the network has come to rest,
two peers know each other or neither knows the other, and each knows the true address of
the other.

The invariant (`Acquainted`) is that whoever knows a peer is known to it, or is about to be:
its greeting to that peer is under way, or it still owes that greeting, or the peer has the
greeting in hand and still owes it to enter who sent it. When nothing is under way and nobody
has anything in hand, only the first is left.

Tables only grow, as nobody is evicted. So what one peer does is judged by who knows whom, and
what the others do meanwhile can only add to that.

## Results

* `Network.Run.machine` — in a network, each engine does one of its runs.
* `Acquainted.act`, `Acquainted.deliver` — the invariant over a step.
* `discovery_mutual` — who knows whom when the network is at rest.
-/

namespace AffineSwarm.Engine

variable {ι : Type} {p : Peers ι}

-- ---------------------------------------------------------------------------
-- What may happen, and rest
-- ---------------------------------------------------------------------------

/-- Sends do not fail and nothing is lost, a datagram is delivered to the peer to whose address
it was sent, static neighbors are peers at their addresses, and nobody is evicted. -/
def Occurrence.IsPeaceful (p : Peers ι) : Occurrence ι → Prop
  | .acted _ (.called call) => call.IsFor p
  | .acted _ (.performed _ ⟨.send _ _, succeeded⟩) => succeeded = true
  | .acted _ (.performed _ ⟨.evict _ _, evicted⟩) => evicted = []
  | .acted _ _ => True
  | .delivered i datagram _ => datagram.target = p.address i
  | .lost _ => False

namespace Network

/-- A peer has another in its table. -/
def Knows (w : Network ι) (p : Peers ι) (i j : ι) : Prop :=
  p.id j ∈ (w.machines i).engine.neighbors.ids

/-- No datagram is under way, and neither the handling of a datagram nor a call is in
progress. Housekeeping may be: it goes before a wait. -/
structure IsQuiet (w : Network ι) : Prop where
  flight : w.flight = []
  handled : ∀ i, (w.machines i).stage = .looking → (w.machines i).network = .done ()
  returned : ∀ i, ∀ c ∈ (w.machines i).calls, c.rest = .done ()

end Network

-- ---------------------------------------------------------------------------
-- The run of each engine
-- ---------------------------------------------------------------------------

variable [DecidableEq ι] {address : ι → Address} {w w' : Network ι} {o : Occurrence ι}

theorem Network.set_self (w : Network ι) (i : ι) (m : Machine) : w.set i m i = m := if_pos rfl

theorem Network.set_of_ne (w : Network ι) {i k : ι} (h : k ≠ i) (m : Machine) :
    w.set i m k = w.machines k := if_neg h

/-- In a network, each engine does one of its runs. -/
theorem Network.Run.machine {allowed : Occurrence ι → Prop} {begin : Network ι}
    {occurrences : List (Occurrence ι)}
    (run : Network.Run address allowed begin occurrences w) (i : ι) :
    ∃ labels, Engine.Run (begin.machines i) labels (w.machines i) := by
  induction run with
  | nil => exact ⟨[], .nil⟩
  | @snoc _ w w' _ _ _ hstep ih =>
    obtain ⟨labels, hrun⟩ := ih
    have hset : ∀ {k label m}, Engine.Step (w.machines k) label m →
        ∃ labels, Engine.Run (begin.machines i) labels (w.set k m i) := by
      intro k label m hstep
      by_cases hk : i = k
      · subst hk
        rw [w.set_self]
        exact ⟨_, hrun.snoc hstep⟩
      · rw [w.set_of_ne hk]
        exact ⟨labels, hrun⟩
    cases hstep with
    | act hstep own => exact hset hstep
    | deliver flight hstep => exact hset hstep
    | lose flight => exact ⟨labels, hrun⟩

/-- A datagram leaves an engine by a send that succeeds. -/
theorem sent?_eq_some {origin : Address} {label : Label} {d : Datagram}
    (h : label.sent? origin = some d) : ∃ thread frame target,
      label = .performed thread ⟨.send frame target, true⟩ ∧ d = ⟨origin, target, frame⟩ := by
  unfold Label.sent? at h
  split at h
  · cases h
    exact ⟨_, _, _, rfl, rfl⟩
  · cases h

-- ---------------------------------------------------------------------------
-- The invariant
-- ---------------------------------------------------------------------------

/-- A peer is about to be known to another: its greeting is under way, or it owes it, or the
other owes it to enter the peer. -/
def Peers.Greets (p : Peers ι) (w : Network ι) (i j : ι) : Prop :=
  ⟨p.address i, p.address j, p.greeting i⟩ ∈ w.flight ∨
    p.Owes (w.Knows p) i (w.machines i) (.greet j) ∨
    p.Owes (w.Knows p) j (w.machines j) (.enter i)

/-- Whoever knows a peer is known to it, or is about to be. -/
structure Acquainted (p : Peers ι) (w : Network ι) : Prop where
  sound : ∀ i, p.Sound (w.Knows p) i (w.machines i)
  flight : ∀ d ∈ w.flight, ∃ i j m, d = ⟨p.address i, p.address j, Frame.encode p.hash m⟩ ∧
    p.Says (w.Knows p) i j m
  acquainted : ∀ i j, w.Knows p i j → w.Knows p j i ∨ p.Greets w i j

variable [Fintype ι]

variable {i : ι} {label : Label}

omit [DecidableEq ι] [Fintype ι] in
/-- Nobody forgets anybody over a step that evicts nobody. -/
theorem knows_le (hstep : Step (w.machines i) label (w'.machines i))
    (hother : ∀ k, k ≠ i → w'.machines k = w.machines k)
    (hkept : ∀ thread now staleAfter evicted,
      label = .performed thread ⟨.evict now staleAfter, evicted⟩ → evicted = []) :
    w.Knows p ≤ w'.Knows p := by
  classical
  intro a b hknows
  by_cases ha : a = i
  · subst ha
    exact hstep.mem_ids_of_mem hkept hknows
  · rwa [Network.Knows, hother a ha]

/-- A step of one peer, for which three things are to be shown: that what is under way is what
peers may say, that the greetings that were under way still come to be known, and that a
greeting that the peer sends is under way. -/
theorem Acquainted.after (h : Acquainted p w)
    (htidy : ∀ i, p.Tidy i (w.machines i).engine.neighbors)
    (hstep : Step (w.machines i) label (w'.machines i))
    (hother : ∀ k, k ≠ i → w'.machines k = w.machines k) (hle : w.Knows p ≤ w'.Knows p)
    (hcall : ∀ c, label = .called c → c.IsFor p)
    (hreceive : ∀ bytes origin now, label = .received bytes origin now →
      ∃ d, (handle (w.machines i).engine.setup bytes origin now).Clears p i (w'.Knows p) d)
    (hflight : ∀ d ∈ w'.flight, ∃ i j m,
      d = ⟨p.address i, p.address j, Frame.encode p.hash m⟩ ∧ p.Says (w'.Knows p) i j m)
    (hgreeting : ∀ a b, w.Knows p a b →
      ⟨p.address a, p.address b, p.greeting a⟩ ∈ w.flight → p.Greets w' a b)
    (hsent : ∀ thread j succeeded,
      label = .performed thread ⟨.send (p.greeting i) (p.address j), succeeded⟩ →
      ⟨p.address i, p.address j, p.greeting i⟩ ∈ w'.flight) :
    Acquainted p w' := by
  have htruthful := (h.sound i).truthful_step (htidy i) hle hstep
  refine ⟨fun k => ?_, hflight, fun a b hknows => ?_⟩
  · by_cases hk : k = i
    · subst hk
      exact (h.sound k).step hle hstep htruthful
        (fun _ => (h.sound k).seats_step (htidy k) hle hstep fun _ hj => hj) hcall hreceive
    · rw [hother k hk]
      exact (h.sound k).mono hle
  · by_cases hold : w.Knows p a b
    · rcases h.acquainted a b hold with hmutual | hunderway | howes | howes
      · exact .inl (hle b a hmutual)
      · exact .inr (hgreeting a b hold hunderway)
      · -- the greeting is still owed, or it was sent just now
        by_cases ha : a = i
        · subst ha
          rcases howes.greet_step hle hstep htruthful with hkept | ⟨thread, succeeded, hlabel⟩
          · exact .inr (.inr (.inl hkept))
          · exact .inr (.inl (hsent thread b succeeded hlabel))
        · exact .inr (.inr (.inl (hother a ha ▸ howes.mono hle)))
      · -- the one who greeted is still to be entered, or was entered just now
        by_cases hb : b = i
        · subst hb
          rcases howes.enter_step hle hstep htruthful with hkept | ⟨thread, _, _, _, rfl⟩
          · exact .inr (.inr (.inr hkept))
          · exact .inl (hstep.mem_ids_of_upsert (htruthful _ _ rfl))
        · exact .inr (.inr (.inr (hother b hb ▸ howes.mono hle)))
    · -- the peer was entered in this step
      have ha : a = i := by
        by_contra hne
        rw [Network.Knows, hother a hne] at hknows
        exact hold hknows
      subst ha
      obtain ⟨thread, address, now, rfl⟩ := hstep.inserted_of_mem hknows hold
      obtain ⟨j, hj, hdone⟩ := (h.sound a).inserted hle hstep
      cases p.id_injective hj
      rcases hdone with howes | hmutual
      · exact .inr (.inr (.inl howes))
      · exact .inl hmutual

/-- A step of a peer of its own. -/
theorem Acquainted.act (h : Acquainted p w)
    (htidy : ∀ i, p.Tidy i (w.machines i).engine.neighbors) {m : Machine}
    (hstep : Step (w.machines i) label m)
    (hown : ∀ datagram origin now, label ≠ .received datagram origin now)
    (hpeaceful : (Occurrence.acted i label).IsPeaceful p) :
    Acquainted p ⟨w.set i m, w.flight ++ (label.sent? (p.address i)).toList⟩ := by
  have hself : w.set i m i = m := w.set_self i m
  have hother : ∀ k, k ≠ i → w.set i m k = w.machines k := fun k hk => w.set_of_ne hk m
  have hle : w.Knows p ≤
      Network.Knows ⟨w.set i m, w.flight ++ (label.sent? (p.address i)).toList⟩ p := by
    refine knows_le (hself.symm ▸ hstep) hother ?_
    rintro thread now staleAfter evicted rfl
    exact hpeaceful
  refine h.after htidy (hself.symm ▸ hstep) hother hle ?_ ?_ (fun d hd => ?_) ?_ ?_
  · rintro c rfl
    exact hpeaceful
  · rintro bytes origin now rfl
    exact absurd rfl (hown _ _ _)
  · rcases List.mem_append.mp hd with hold | hnew
    · obtain ⟨a, b, message, hframe, hsaid⟩ := h.flight d hold
      exact ⟨a, b, message, hframe, hsaid.mono hle⟩
    · obtain ⟨thread, frame, target, rfl, rfl⟩ := sent?_eq_some (Option.mem_toList.mp hnew)
      obtain ⟨b, message, rfl, rfl, hsaid⟩ := (h.sound i).permits hstep
      exact ⟨i, b, message, rfl, hsaid.mono hle⟩
  · intro a b _ hmem
    exact .inl (List.mem_append_left _ hmem)
  · rintro thread j succeeded rfl
    cases (hpeaceful : succeeded = true)
    exact List.mem_append_right _ List.mem_cons_self

omit [Fintype ι] [DecidableEq ι] in
/-- What a peer does with a datagram that was under way to it settles the debt that the
datagram makes. -/
theorem Acquainted.clears_handle (h : Acquainted p w) {d : Datagram} (hd : d ∈ w.flight)
    (htarget : d.target = p.address i) (now : Nat) :
    ∃ debt, (handle (w.machines i).engine.setup d.bytes d.origin now).Clears p i
      (w.Knows p) debt := by
  obtain ⟨a, b, message, rfl, hsaid⟩ := h.flight d hd
  cases p.address_injective htarget
  have hs := (h.sound i).setup
  by_cases hgreeting : ∃ id, message = .hello id ∧ a ≠ i
  · obtain ⟨id, rfl, hne⟩ := hgreeting
    cases (hsaid : id = p.id a)
    exact ⟨_, clears_handle_hello hs hne now⟩
  · refine ⟨_, Engine.clears_handle hs hsaid (fun id hid => ?_) now⟩
    by_contra hne
    exact hgreeting ⟨id, hid, hne⟩

/-- A datagram is delivered to the peer to which it was sent. -/
theorem Acquainted.deliver (h : Acquainted p w)
    (htidy : ∀ i, p.Tidy i (w.machines i).engine.neighbors) {d : Datagram}
    {before after : List Datagram} {now : Nat} {m : Machine}
    (hflight : w.flight = before ++ d :: after)
    (hstep : Step (w.machines i) (.received d.bytes d.origin now) m)
    (htarget : d.target = p.address i) : Acquainted p ⟨w.set i m, before ++ after⟩ := by
  have hself : w.set i m i = m := w.set_self i m
  have hother : ∀ k, k ≠ i → w.set i m k = w.machines k := fun k hk => w.set_of_ne hk m
  have hreceived : Step (w.machines i) (.received d.bytes d.origin now) (w.set i m i) :=
    hself.symm ▸ hstep
  have hle : w.Knows p ≤ Network.Knows ⟨w.set i m, before ++ after⟩ p :=
    knows_le hreceived hother (by rintro _ _ _ _ ⟨⟩)
  have hmem : ∀ {d'}, d' ∈ before ++ after → d' ∈ w.flight := by
    intro d' hd'
    rw [hflight, List.mem_append, List.mem_cons]
    exact (List.mem_append.mp hd').imp_right .inr
  have hd : d ∈ w.flight := hflight ▸ List.mem_append_cons_self
  refine h.after htidy hreceived hother hle (by rintro _ ⟨⟩) ?_ (fun d' hd' => ?_) ?_
    (by rintro _ _ _ ⟨⟩)
  · rintro bytes origin now ⟨⟩
    obtain ⟨debt, hclears⟩ := h.clears_handle hd htarget now
    exact ⟨debt, hclears.mono hle⟩
  · obtain ⟨a, b, message, hframe, hsaid⟩ := h.flight d' (hmem hd')
    exact ⟨a, b, message, hframe, hsaid.mono hle⟩
  · intro a b hknows hunderway
    rw [hflight, List.mem_append, List.mem_cons] at hunderway
    rcases hunderway with hbefore | rfl | hafter
    · exact .inl (List.mem_append_left _ hbefore)
    · -- the greeting is in hand now
      cases p.address_injective htarget
      have hne : a ≠ i := by
        rintro rfl
        exact (htidy a).own_not_mem hknows
      have hlooking : m.stage = .looking ∧
          m.network = handle (w.machines i).engine.setup (p.greeting a) (p.address a) now := by
        cases hstep with
        | receive _ _ _ stage idle => exact ⟨rfl, rfl⟩
      refine .inr (.inr (.inl ?_))
      dsimp only
      rw [hself, hlooking.2]
      exact ⟨hlooking.1, clears_handle_hello (h.sound i).setup hne now⟩
    · exact .inl (List.mem_append_right _ hafter)

/-- Every step of the network keeps the invariant. -/
theorem Acquainted.step (h : Acquainted p w)
    (htidy : ∀ i, p.Tidy i (w.machines i).engine.neighbors)
    (hpeaceful : o.IsPeaceful p) (hstep : Network.Step p.address w o w') : Acquainted p w' := by
  cases hstep with
  | act hstep own => exact h.act htidy hstep own hpeaceful
  | deliver flight hstep => exact h.deliver htidy flight hstep hpeaceful
  | lose flight => exact hpeaceful.elim

-- ---------------------------------------------------------------------------
-- Discovery
-- ---------------------------------------------------------------------------

/-- An engine that was started as a peer: it does not broadcast, and has room for all others. -/
def Peers.Starts (p : Peers ι) (i : ι) (e : Engine) : Prop :=
  ∃ config opening, config.nodeId = p.id i ∧ config.key = p.key ∧ config.broadcast = none ∧
    Fintype.card ι - 1 ≤ config.neighborCapacity ∧ start config opening = .ok e

variable {engines : ι → Engine} {occurrences : List (Occurrence ι)}

omit [DecidableEq ι] in
theorem acquainted_starting (started : ∀ i, p.Starts i (engines i)) :
    Acquainted p (.starting engines) := by
  have hfresh : ∀ i, p.IsSetup i (engines i).setup ∧ (engines i).neighbors.entries = [] := by
    intro i
    obtain ⟨config, opening, hid, hkey, hbroadcast, -, hstart⟩ := started i
    obtain ⟨localAddress, heq⟩ := start_eq_ok hstart
    rw [heq]
    exact ⟨⟨hid, congrArg AuthKey.keyedHash hkey, hbroadcast⟩, rfl⟩
  have hseats : ∀ i, (engines i).neighbors.seats = [] :=
    fun i => congrArg (List.map _) (hfresh i).2
  have hids : ∀ i, (engines i).neighbors.ids = [] := fun i => congrArg (List.map _) (hfresh i).2
  refine ⟨fun i => ⟨(hfresh i).1, fun seat hseat => ?_, ⟨.none, rfl⟩, .inl rfl, nofun⟩, nofun,
    fun i j hknows => ?_⟩
  · have hmem : seat ∈ (engines i).neighbors.seats := hseat
    rw [hseats i] at hmem
    cases hmem
  · have hmem : p.id j ∈ (engines i).neighbors.ids := hknows
    rw [hids i] at hmem
    cases hmem

/-- The table of a peer is tidy in every run. -/
theorem tidy_of_run (started : ∀ i, p.Starts i (engines i)) {allowed : Occurrence ι → Prop}
    (run : Network.Run address allowed (.starting engines) occurrences w) (i : ι) :
    p.Tidy i (w.machines i).engine.neighbors := by
  obtain ⟨config, opening, hid, -, -, hroom, hstart⟩ := started i
  obtain ⟨labels, hrun⟩ := run.machine i
  have h := (Registered.starting hstart).run hrun
  refine ⟨h.recorded.nodup, ?_, ?_⟩
  · obtain ⟨localAddress, heq⟩ := start_eq_ok hstart
    have hown : (engines i).setup.nodeId = p.id i := by
      rw [heq]
      exact hid
    exact hown ▸ h.own_not_mem
  · rw [h.capacity_eq]
    omega

/-- Every run keeps the invariant, by induction on its steps. -/
theorem acquainted_of_run (started : ∀ i, p.Starts i (engines i))
    (run : Network.Run p.address (Occurrence.IsPeaceful p) (.starting engines) occurrences w) :
    Acquainted p w := by
  induction run with
  | nil => exact acquainted_starting started
  | snoc hrun hpeaceful hstep ih => exact ih.step (tidy_of_run started hrun) hpeaceful hstep

/-- **Discovery is mutual.** Any number of peers, with identities and addresses of their own
and one key, are started with empty tables that have room for all others, and do not broadcast.
They greet, announce themselves, enter each other as static neighbors and send formulas, in any
order; datagrams take any time and overtake each other, but none is lost or repeated, no send
fails, and nobody is evicted. Then, whenever no datagram is under way and no call and no
handling of a datagram is in progress, a peer has another in its table if and only if the other
has it, and every entry of a table is of another peer and has its true address. -/
theorem discovery_mutual (p : Peers ι) (engines : ι → Engine)
    (occurrences : List (Occurrence ι)) (w : Network ι)
    (started : ∀ i, p.Starts i (engines i))
    (run : Network.Run p.address (Occurrence.IsPeaceful p) (.starting engines) occurrences w)
    (quiet : w.IsQuiet) :
    (∀ i j, w.Knows p i j ↔ w.Knows p j i) ∧
    ∀ i, ∀ n ∈ (w.machines i).engine.neighbors.entries,
      ∃ j, j ≠ i ∧ n.id = p.id j ∧ n.address = p.address j := by
  have h := acquainted_of_run started run
  have hmutual : ∀ i j, w.Knows p i j → w.Knows p j i := by
    intro i j hknows
    rcases h.acquainted i j hknows with hmutual | hunderway | howes | howes
    · exact hmutual
    · rw [quiet.flight] at hunderway
      exact absurd hunderway List.not_mem_nil
    · cases howes.eq_none (quiet.handled i) (quiet.returned i)
    · cases howes.eq_none (quiet.handled j) (quiet.returned j)
  refine ⟨fun i j => ⟨hmutual i j, hmutual j i⟩, fun i n hn => ?_⟩
  obtain ⟨j, hknows, hid, haddress⟩ := (h.sound i).isEntry hn
  refine ⟨j, ?_, hid, haddress⟩
  rintro rfl
  exact (tidy_of_run started run j).own_not_mem hknows

/-- Node 1 enters node 2 as a static neighbor and greets it. Node 2 greets back, and both know
each other. -/
theorem discovery_mutual_of_static_neighbor :
    let p : Peers Bool := ⟨⟨[]⟩, fun i => if i then 2 else 1,
      fun i => if i then .anyHost 9 else .anyHost 8, by decide, by decide⟩
    let engines : Bool → Engine := fun i => fresh (.standard (p.id i) 0 p.key) (p.address i)
    (∀ i, p.Starts i (engines i)) ∧
    ∃ occurrences w,
      Network.Run p.address (Occurrence.IsPeaceful p) (.starting engines) occurrences w ∧
      w.IsQuiet ∧ w.Knows p false true ∧ w.Knows p true false := by
  intro p engines
  have started : ∀ i, p.Starts i (engines i) := fun i =>
    ⟨.standard (p.id i) 0 p.key, ⟨.ok (), .ok (), .ok (), .ok (p.address i), .ok ()⟩, rfl, rfl, rfl,
      show 1 ≤ Neighbor.Table.standardCapacity by decide, rfl⟩
  let socket : Socket := fun _ _ => true
  have hread : ∀ i j, Frame.decode (engines j).setup.hash (p.greeting i) = .ok (.hello (p.id i)) :=
    fun i j => Frame.decode_encode p.hash (m := .hello (p.id i)) trivial
  -- node 1 enters node 2 and greets it
  have h1 : Network.Run p.address (Occurrence.IsPeaceful p) (.starting engines) _ _ :=
    .snoc .nil (by exact ⟨true, rfl, rfl⟩)
      (.act (i := false) (.call (.addStaticNeighbor (p.address true) (p.id true) 0)) nofun)
  have h2 := h1.snoc (by exact trivial)
    (.act (i := false) (@Step.application _ [] [] _ _ _ socket rfl) nofun)
  have h3 := h2.snoc (by rfl) (.act (i := false) (@Step.application _ [] [] _ _ _ socket rfl) nofun)
  have h4 := h3.snoc (by exact trivial)
    (.act (i := false) (@Step.application _ [] [] _ _ _ socket rfl) nofun)
  -- node 2 does its housekeeping, receives the greeting and greets back
  have h5 := h4.snoc (by exact trivial) (.act (i := true) (.housekeeping false 0 rfl rfl rfl) nofun)
  have h6 := h5.snoc (by rfl) (.act (i := true) (.network socket rfl) nofun)
  have h7 := h6.snoc (by exact trivial) (.act (i := true) (.network socket rfl) nofun)
  have h8 := h7.snoc (by rfl) (@Network.Step.deliver _ _ _ _ true
    ⟨p.address false, p.address true, p.greeting false⟩ [] [] 0 _ rfl (.receive _ _ _ rfl rfl))
  have h9 := h8.snoc (by exact trivial) (.act (i := true) (.network socket
    (handle_of_decode (hread false true) (by decide) (p.address false) 0)) nofun)
  have h10 := h9.snoc (by exact trivial) (.act (i := true) (.network socket rfl) nofun)
  have h11 := h10.snoc (by rfl) (.act (i := true) (.network socket rfl) nofun)
  have h12 := h11.snoc (by exact trivial) (.act (i := true) (.network socket rfl) nofun)
  have h13 := h12.snoc (by exact trivial) (.act (i := true) (.network socket rfl) nofun)
  -- node 1 does the same, and has nothing to greet back
  have h14 := h13.snoc (by exact trivial)
    (.act (i := false) (.housekeeping false 0 rfl rfl rfl) nofun)
  have h15 := h14.snoc (by rfl) (.act (i := false) (.network socket rfl) nofun)
  have h16 := h15.snoc (by exact trivial) (.act (i := false) (.network socket rfl) nofun)
  have h17 := h16.snoc (by rfl) (@Network.Step.deliver _ _ _ _ false
    ⟨p.address true, p.address false, p.greeting true⟩ [] [] 0 _ rfl (.receive _ _ _ rfl rfl))
  have h18 := h17.snoc (by exact trivial) (.act (i := false) (.network socket
    (handle_of_decode (hread true false) (by decide) (p.address true) 0)) nofun)
  have h19 := h18.snoc (by exact trivial) (.act (i := false) (.network socket rfl) nofun)
  have h20 := h19.snoc (by exact trivial) (.act (i := false) (.network socket rfl) nofun)
  have hrest : ∀ {occurrences w},
      Network.Run p.address (Occurrence.IsPeaceful p) (.starting engines) occurrences w →
      w.IsQuiet → w.Knows p false true →
      w.IsQuiet ∧ w.Knows p false true ∧ w.Knows p true false :=
    fun run quiet hknows => ⟨quiet, hknows,
      ((discovery_mutual p engines _ _ started run quiet).1 false true).mp hknows⟩
  refine ⟨started, _, _, h20, hrest h20 ⟨rfl, fun i _ => ?_, fun i c hc => ?_⟩ ?_⟩
  · cases i <;> rfl
  · cases i with
    | false =>
      cases List.mem_singleton.mp hc
      rfl
    | true => cases hc
  · exact List.mem_singleton.mpr rfl

end AffineSwarm.Engine
