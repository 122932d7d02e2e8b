import AffineSwarm.Proofs.Engine.Duty
import AffineSwarm.Proofs.Engine.History

/-!
# Delivery and acknowledgement

Acknowledgements tell the truth, and accepted events are delivered exactly once and in
order, whatever the application does meanwhile.

The invariant (`Faithful`) ties the history of a run to its state in two ways. The events
in the queue are those that were accepted and not yet taken. And the network loop is
behind with at most one thing: the arrivals are the events that were brought to the
queue, and the acknowledgements those that these events call for, up to the duty that
the loop has in hand.
-/

namespace AffineSwarm.Engine

variable {s : Setup} {labels : List Label}

-- ---------------------------------------------------------------------------
-- Histories and duties
-- ---------------------------------------------------------------------------

/-- A history that is complete up to a duty. -/
structure Accounts (s : Setup) (labels : List Label) (d : Duty) : Prop where
  arrived : arrivals s labels = (pushes labels).map Prod.fst ++ d.event?.toList
  acknowledged :
    (pushes labels).filterMap acknowledgement =
      acks s.hash labels ++ d.acknowledgement?.toList

theorem accounts_nil (s : Setup) : Accounts s [] .idle := ⟨rfl, rfl⟩

/-- A step that brings no event and sends nothing. -/
theorem Accounts.snoc {d : Duty} {label : Label} (h : Accounts s labels d)
    (harrival : label.arrival? s = none) (hpush : label.push? = none)
    (hack : label.ack? s.hash = none) : Accounts s (labels ++ [label]) d where
  arrived := by
    rw [arrivals_snoc, pushes_snoc, harrival, hpush]
    simp only [Option.toList_none, List.append_nil]
    exact h.arrived
  acknowledged := by
    rw [acks_snoc, pushes_snoc, hack, hpush]
    simp only [Option.toList_none, List.append_nil]
    exact h.acknowledged

/-- A datagram that arrives makes its duty. -/
theorem Accounts.received (h : Accounts s labels .idle) (datagram : List UInt8)
    (origin : Address) (now : Nat) :
    Accounts s (labels ++ [.received datagram origin now])
      (.ofEvent? (dueEvent s datagram origin)) where
  arrived := by
    rw [arrivals_snoc, pushes_snoc, h.arrived]
    cases hevent : dueEvent s datagram origin <;>
      simp [Label.arrival?, Label.push?, hevent, Duty.ofEvent?, Duty.event?]
  acknowledged := by
    rw [acks_snoc, pushes_snoc]
    have hack := h.acknowledged
    cases hevent : dueEvent s datagram origin <;>
      simpa [Label.push?, Label.ack?, Duty.ofEvent?, Duty.acknowledgement?] using hack

/-- An access that keeps to the duty. -/
theorem Accounts.performed {d d' : Duty} {a : Access} {answer : a.Answer}
    (h : Accounts s labels d) (thread : Thread) (hafter : d.after s.hash a answer = some d') :
    Accounts s (labels ++ [.performed thread ⟨a, answer⟩]) d' := by
  cases a with
  | push event =>
    rw [Duty.after] at hafter
    split at hafter
    · rename_i hd
      cases hd
      cases hafter
      have harrived := h.arrived
      have hack := h.acknowledged
      simp only [Duty.event?, Duty.acknowledgement?, Option.toList_none, List.append_nil,
        Option.toList_some] at harrived hack
      constructor
      · rw [arrivals_snoc, pushes_snoc, harrived]
        cases hcalls : acknowledgement (event, answer) <;>
          simp [Label.arrival?, Label.push?, Duty.ofAcknowledgement?, Duty.event?]
      · rw [acks_snoc, pushes_snoc, List.filterMap_append, hack]
        cases hcalls : acknowledgement (event, answer) <;>
          simp [Label.ack?, Label.push?, hcalls, Duty.ofAcknowledgement?, Duty.acknowledgement?]
    · cases hafter
  | send frame target =>
    rw [Duty.after] at hafter
    split at hafter
    · rename_i hstatus
      cases hafter
      exact h.snoc rfl rfl (by rw [Label.ack?, hstatus]; rfl)
    · rename_i status hstatus
      split at hafter
      · rename_i hd
        cases hd
        cases hafter
        have harrived := h.arrived
        have hack := h.acknowledged
        constructor
        · rw [arrivals_snoc, pushes_snoc, harrived]
          simp [Label.arrival?, Label.push?, Duty.event?]
        · rw [acks_snoc, pushes_snoc, List.filterMap_append, hack]
          simp [Label.ack?, Label.push?, hstatus, Duty.acknowledgement?]
      · cases hafter
  | _ =>
    cases hafter
    exact h.snoc rfl rfl rfl

-- ---------------------------------------------------------------------------
-- The invariant
-- ---------------------------------------------------------------------------

/-- What the history of a run says of its state. -/
structure Faithful (s : Setup) (labels : List Label) (m : Machine) : Prop where
  setup_eq : m.engine.setup = s
  queue : ∃ waiting, m.engine.events.Represents waiting ∧
    accepted labels = taken labels ++ waiting
  network : ∃ d, Accounts s labels d ∧ m.network.Keeps s.hash (fun _ d => d = .idle) d
  calls : ∀ c ∈ m.calls, c.rest.All (Unnoticed s.hash)

/-- An idle network loop has no duty. -/
theorem Faithful.idle {m : Machine} (h : Faithful s labels m) (hidle : m.network = .done ()) :
    Accounts s labels .idle := by
  obtain ⟨d, haccounts, hkeeps⟩ := h.network
  rw [hidle] at hkeeps
  cases hkeeps
  exact haccounts

/-- The accepted events are those that were taken and those that are queued. -/
theorem Faithful.accepted_eq {m : Machine} (h : Faithful s labels m) :
    accepted labels = taken labels ++ m.engine.events.toList := by
  obtain ⟨waiting, hrepresents, haccepted⟩ := h.queue
  rw [hrepresents.toList_eq, haccepted]

/-- The queue after an access. -/
theorem Faithful.perform {m : Machine} (h : Faithful s labels m) (socket : Socket) (a : Access)
    (thread : Thread) :
    ∃ waiting, (a.perform socket m.engine).2.events.Represents waiting ∧
      accepted (labels ++ [.performed thread ⟨a, (a.perform socket m.engine).1⟩]) =
        taken (labels ++ [.performed thread ⟨a, (a.perform socket m.engine).1⟩]) ++ waiting := by
  obtain ⟨waiting, hrepresents, haccepted⟩ := h.queue
  obtain ⟨left, hleft, hlaw⟩ := perform_events socket m.engine a thread hrepresents
  refine ⟨left, hleft, ?_⟩
  rw [accepted_append, taken_append, haccepted, List.append_assoc, hlaw, List.append_assoc]

theorem Faithful.starting {config : EngineConfig} {opening : Opening} {e : Engine}
    (h : start config opening = .ok e) : Faithful e.setup [] (.starting e) where
  setup_eq := rfl
  queue := by
    obtain ⟨localAddress, rfl⟩ := start_eq_ok h
    exact ⟨[], Ring.represents_empty _, rfl⟩
  network := ⟨.idle, accounts_nil _, rfl⟩
  calls := nofun

/-- Every step keeps the history faithful. -/
theorem Faithful.step {m m' : Machine} {label : Label} (h : Faithful s labels m)
    (hstep : Step m label m') : Faithful s (labels ++ [label]) m' := by
  have hqueue : accepted [label] = [] → taken [label] = [] → ∃ waiting,
      m.engine.events.Represents waiting ∧
        accepted (labels ++ [label]) = taken (labels ++ [label]) ++ waiting := by
    intro haccepted htaken
    rw [accepted_append, taken_append, haccepted, htaken, List.append_nil, List.append_nil]
    exact h.queue
  cases hstep with
  | housekeeping due now stage running idle =>
    refine ⟨h.setup_eq, hqueue rfl rfl, ⟨.idle, (h.idle idle).snoc rfl rfl rfl, ?_⟩, h.calls⟩
    rw [h.setup_eq]
    exact ((all_upkeep s due now).mono fun _ => Upkeeps.unnoticed).keeps
  | receive datagram origin now stage idle =>
    refine ⟨h.setup_eq, hqueue rfl rfl, ⟨_, (h.idle idle).received datagram origin now, ?_⟩,
      h.calls⟩
    rw [h.setup_eq]
    exact handle_discharges s datagram origin now
  | lapse stage idle =>
    obtain ⟨d, haccounts, hkeeps⟩ := h.network
    exact ⟨h.setup_eq, hqueue rfl rfl, ⟨d, haccounts.snoc rfl rfl rfl, hkeeps⟩, h.calls⟩
  | finish stage stopped idle =>
    obtain ⟨d, haccounts, hkeeps⟩ := h.network
    exact ⟨h.setup_eq, hqueue rfl rfl, ⟨d, haccounts.snoc rfl rfl rfl, hkeeps⟩, h.calls⟩
  | call c =>
    obtain ⟨d, haccounts, hkeeps⟩ := h.network
    refine ⟨h.setup_eq, hqueue rfl rfl, ⟨d, haccounts.snoc rfl rfl rfl, hkeeps⟩, ?_⟩
    intro c' hc'
    rcases List.mem_append.mp hc' with hold | hnew
    · exact h.calls c' hold
    · cases List.mem_singleton.mp hnew
      have hall := all_begun m.engine c
      rw [h.setup_eq] at hall
      exact hall.mono fun _ => Call.Allows.unnoticed
  | leave hcalls join =>
    obtain ⟨d, haccounts, hkeeps⟩ := h.network
    exact ⟨h.setup_eq, hqueue rfl rfl, ⟨d, haccounts.snoc rfl rfl rfl, hkeeps⟩,
      forall_mem_remove (hcalls ▸ h.calls)⟩
  | network socket work =>
    obtain ⟨d, haccounts, hkeeps⟩ := h.network
    rw [work] at hkeeps
    obtain ⟨d', hafter, hnext⟩ := hkeeps _
    exact ⟨(setup_perform ..).trans h.setup_eq, h.perform socket _ _,
      ⟨d', haccounts.performed .network hafter, hnext⟩, h.calls⟩
  | @application before after c a next socket hcalls =>
    obtain ⟨d, haccounts, hkeeps⟩ := h.network
    have hmem : (⟨c, .access a next⟩ : Pending) ∈ m.calls := by
      rw [hcalls]
      exact List.mem_append_right _ List.mem_cons_self
    have hall := h.calls _ hmem
    exact ⟨(setup_perform ..).trans h.setup_eq, h.perform socket _ _,
      ⟨d, haccounts.performed _ (hall.1.after d _), hkeeps⟩,
      forall_mem_replace (hcalls ▸ h.calls) (hall.2 _)⟩

/-- Every run is faithful, by induction on its steps. -/
theorem Faithful.run {start m : Machine} (h : Faithful s [] start) (hrun : Run start labels m) :
    Faithful s labels m := by
  induction hrun with
  | nil => exact h
  | snoc _ hstep ih => exact ih.step hstep

-- ---------------------------------------------------------------------------
-- Delivery
-- ---------------------------------------------------------------------------

/-- **Acknowledgements tell the truth, and accepted events are delivered exactly once.**
In every run of an engine, with the steps of its threads in any order:

* the greetings and formulas of other nodes are brought to the queue one by one and in
  the order in which they arrived, with their senders, origins, genes and fitnesses;
* the formulas among them are acknowledged one by one and in that order, each to its
  origin, with 0 if the queue accepted it and with 1 if the queue refused it;
* the events that were taken, followed by those that are queued, are those that the
  queue accepted, in that order.

The network loop is behind with at most one event and at most one acknowledgement, and
with none when it has nothing in hand. -/
theorem delivery_faithful (config : EngineConfig) (opening : Opening) (e : Engine)
    (labels : List Label) (m : Machine) (started : start config opening = .ok e)
    (run : Run (.starting e) labels m) :
    (∃ coming, arrivals e.setup labels = (pushes labels).map Prod.fst ++ coming ∧
      coming.length ≤ 1 ∧ (m.network = .done () → coming = [])) ∧
    (∃ owed, (pushes labels).filterMap acknowledgement = acks e.setup.hash labels ++ owed ∧
      owed.length ≤ 1 ∧ (m.network = .done () → owed = [])) ∧
    taken labels ++ m.engine.events.toList = accepted labels := by
  have h : Faithful e.setup labels m := (Faithful.starting started).run run
  obtain ⟨d, haccounts, hkeeps⟩ := h.network
  have hidle : m.network = .done () → d = .idle := by
    intro hdone
    rw [hdone] at hkeeps
    exact hkeeps
  refine ⟨⟨_, haccounts.arrived, Option.length_toList_le, fun hdone => ?_⟩,
    ⟨_, haccounts.acknowledged, Option.length_toList_le, fun hdone => ?_⟩, ?_⟩
  · rw [hidle hdone]
    rfl
  · rw [hidle hdone]
    rfl
  · exact h.accepted_eq.symm

/-- A formula that arrives from node 2 is queued by node 1 and acknowledged. -/
theorem delivery_faithful_of_formula :
    let e := fresh (.standard 1 0 ⟨[]⟩) (.anyHost 7)
    let formula : Formula := ⟨.empty, .one, .zero⟩
    start (.standard 1 0 ⟨[]⟩) ⟨.ok (), .ok (), .ok (), .ok (.anyHost 7), .ok ()⟩ = .ok e ∧
    ∃ labels m, Run (.starting e) labels m ∧
      m.engine.events.toList = [.formula 2 (.anyHost 9) formula] ∧
      acks e.setup.hash labels = [(.anyHost 9, 0)] := by
  intro e formula
  have started : start (.standard 1 0 ⟨[]⟩)
      ⟨.ok (), .ok (), .ok (), .ok (.anyHost 7), .ok ()⟩ = .ok e := rfl
  have hvalid : (Message.migration 2 formula).IsValid := show Binary64.Within _ _ _ by decide
  have hdecode : Frame.decode e.setup.hash (e.setup.encode (.migration 2 formula)) =
      .ok (.migration 2 formula) := Frame.decode_encode _ hvalid
  let socket : Socket := fun _ _ => true
  have h1 : Run (.starting e) _ _ := .snoc .nil (.housekeeping false 0 rfl rfl rfl)
  have h2 := (h1.snoc (.network socket rfl)).snoc (.network socket rfl)
  have h3 := h2.snoc (.receive (e.setup.encode (.migration 2 formula)) (.anyHost 9) 0 rfl rfl)
  have hforeign : (Message.migration 2 formula).sender? ≠ some e.setup.nodeId := by decide
  have h4 := h3.snoc (.network socket (handle_of_decode hdecode hforeign (.anyHost 9) 0))
  have h5 := (h4.snoc (.network socket rfl)).snoc (.network socket rfl)
  have h6 := (h5.snoc (.network socket rfl)).snoc (.network socket rfl)
  obtain ⟨-, ⟨owed, hacks, -, howed⟩, -⟩ := delivery_faithful _ _ e _ _ started h6
  refine ⟨started, _, _, h6, rfl, ?_⟩
  rw [howed rfl, List.append_nil] at hacks
  exact hacks.symm

end AffineSwarm.Engine
