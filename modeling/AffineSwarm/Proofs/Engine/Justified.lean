import AffineSwarm.Engine.Swarm
import AffineSwarm.Proofs.Engine.Accesses
import AffineSwarm.Proofs.Engine.Datagram

/-!
# Justified accesses

On a hostile network, what an engine does is judged by the history of all engines. An
access is justified if what it sends is a message of its own engine, and if what it
brings to the queue or to the table is backed by a frame that was sent before
(`Justified`). Justified accesses stay so as the history grows (`Justified.mono`).

Calls and housekeeping are justified by themselves; reacting to a message is justified
by the frame of an engine that sent it (`Reacts.justified`).
-/

namespace AffineSwarm.Engine

variable {ι : Type}

-- ---------------------------------------------------------------------------
-- What is backed by a history
-- ---------------------------------------------------------------------------

/-- A message that an engine may send: it greets, acknowledges, and migrates the formulas
that were passed to it. -/
def Authored (engines : ι → Engine) (history : History ι) (i : ι) : Message → Prop
  | .hello id => id = (engines i).setup.nodeId
  | .migrate id gene fitness =>
    id = (engines i).setup.nodeId ∧
      ∃ f, history.Passed i f ∧ gene = f.gene ∧ fitness = f.fitness
  | .ack _ => True

/-- A node of which an engine with its identity has sent a message that names it. -/
def Known (engines : ι → Engine) (hash : KeyedHash) (history : History ι) (id : NodeId) : Prop :=
  ∃ i m, (engines i).setup.nodeId = id ∧ m.sender? = some id ∧
    history.Sent i (Frame.encode hash m)

/-- An event that comes from a frame of an engine with its sender's identity. A formula has
the gene and the fitness of one that was passed to that engine, and no feedback. -/
def Genuine (engines : ι → Engine) (hash : KeyedHash) (history : History ι) : Event → Prop
  | .hello id _ =>
    ∃ i, (engines i).setup.nodeId = id ∧ history.Sent i (Frame.encode hash (.hello id))
  | .formula id _ formula =>
    ∃ i f, (engines i).setup.nodeId = id ∧ history.Passed i f ∧
      history.Sent i (Frame.encode hash (.migration id f)) ∧
      formula = ⟨f.gene, f.fitness, .zero⟩

/-- An access of an engine that a history justifies. -/
def Justified (engines : ι → Engine) (hash : KeyedHash) (history : History ι) (i : ι)
    (thread : Thread) : Access → Prop
  | .send frame _ => ∃ m, frame = Frame.encode hash m ∧ Authored engines history i m
  | .push event =>
    Genuine engines hash history event ∧ event.sender ≠ (engines i).setup.nodeId
  | .upsert id _ _ =>
    match thread with
    | .network => Known engines hash history id
    | .application c => ∃ address now, c = .addStaticNeighbor address id now
  | _ => True

section Monotone

variable {engines : ι → Engine} {hash : KeyedHash} {history : History ι} {i : ι}

theorem History.Sent.mono {frame : List UInt8} (h : history.Sent i frame) (more : History ι) :
    (history ++ more).Sent i frame := by
  obtain ⟨thread, target, hmem⟩ := h
  exact ⟨thread, target, List.mem_append_left _ hmem⟩

theorem History.Passed.mono {f : Formula} (h : history.Passed i f) (more : History ι) :
    (history ++ more).Passed i f := by
  rcases h with ⟨rand, hmem⟩ | hmem
  · exact .inl ⟨rand, List.mem_append_left _ hmem⟩
  · exact .inr (List.mem_append_left _ hmem)

theorem Authored.mono {m : Message} (h : Authored engines history i m) (more : History ι) :
    Authored engines (history ++ more) i m := by
  cases m with
  | hello id => exact h
  | migrate id gene fitness =>
    obtain ⟨hid, f, hpassed, hscore⟩ := h
    exact ⟨hid, f, hpassed.mono more, hscore⟩
  | ack status => trivial

theorem Known.mono {id : NodeId} (h : Known engines hash history id) (more : History ι) :
    Known engines hash (history ++ more) id := by
  obtain ⟨j, m, hid, hsender, hsent⟩ := h
  exact ⟨j, m, hid, hsender, hsent.mono more⟩

theorem Genuine.mono {event : Event} (h : Genuine engines hash history event)
    (more : History ι) : Genuine engines hash (history ++ more) event := by
  cases event with
  | hello id address =>
    obtain ⟨j, hid, hsent⟩ := h
    exact ⟨j, hid, hsent.mono more⟩
  | formula id address formula =>
    obtain ⟨j, f, hid, hpassed, hsent, hformula⟩ := h
    exact ⟨j, f, hid, hpassed.mono more, hsent.mono more, hformula⟩

/-- What a history justifies, a longer one does too. -/
theorem Justified.mono {thread : Thread} {a : Access}
    (h : Justified engines hash history i thread a) (more : History ι) :
    Justified engines hash (history ++ more) i thread a := by
  cases a with
  | send frame target =>
    obtain ⟨m, hframe, hauthored⟩ := h
    exact ⟨m, hframe, hauthored.mono more⟩
  | push event => exact ⟨h.1.mono more, h.2⟩
  | upsert id address now =>
    cases thread with
    | network => exact Known.mono h more
    | application c => exact h
  | _ => trivial

end Monotone

-- ---------------------------------------------------------------------------
-- What the routines do is justified
-- ---------------------------------------------------------------------------

section Routines

variable {engines : ι → Engine} {hash : KeyedHash} {history : History ι} {i : ι}

theorem Sending.justified {m : Message} {a : Access} (h : Sending (Frame.encode hash m) a)
    (authored : Authored engines history i m) (thread : Thread) :
    Justified engines hash history i thread a := by
  cases a with
  | send frame target => exact ⟨m, h, authored⟩
  | push event => exact h.elim
  | upsert id address now => exact h.elim
  | _ => trivial

theorem Sending.justified_greeting (hhash : (engines i).setup.hash = hash) {a : Access}
    (h : Sending (engines i).setup.greeting a) (thread : Thread) :
    Justified engines hash history i thread a := by
  subst hhash
  exact Sending.justified h (show Authored engines history i (.hello _) from rfl) thread

/-- A call does what its application asked for. -/
theorem Call.Allows.justified (hhash : (engines i).setup.hash = hash) {c : Call} {a : Access}
    (h : c.Allows (engines i).setup a) (called : (i, .called c) ∈ history) :
    Justified engines hash history i (.application c) a := by
  have hmigration : ∀ f, history.Passed i f → Sending ((engines i).setup.migration f) a →
      Justified engines hash history i (.application c) a := by
    subst hhash
    intro f hpassed hsending
    exact hsending.justified (m := .migration _ f) ⟨rfl, f, hpassed, rfl, rfl⟩ _
  cases c with
  | sendHello => exact Sending.justified_greeting hhash h _
  | addStaticNeighbor address id now =>
    rcases h with ⟨rfl, -⟩ | h
    · exact ⟨address, now, rfl⟩
    · exact Sending.justified_greeting hhash h _
  | sendToRandom rand f => exact hmigration f (.inl ⟨rand, called⟩) h
  | sendToAll f => exact hmigration f (.inr called) h
  | nextEvent => exact h ▸ trivial
  | drainEvents => exact h ▸ trivial
  | stop => exact h ▸ trivial

theorem Upkeeps.justified (hhash : (engines i).setup.hash = hash) {a : Access}
    (h : Upkeeps (engines i).setup a) : Justified engines hash history i .network a := by
  rcases h with h | ⟨now, rfl⟩
  · exact Sending.justified_greeting hhash h _
  · trivial

/-- Reacting to a message of another engine is justified by the frame that this engine
sent. -/
theorem Reacts.justified (hhash : (engines i).setup.hash = hash) {j : ι} {m : Message}
    {origin : Address} {now : Nat} {a : Access} (h : Reacts (engines i).setup origin now m a)
    (hforeign : m.sender? ≠ some (engines i).setup.nodeId) (hvalid : m.IsValid)
    (hauthored : Authored engines history j m) (hsent : history.Sent j (Frame.encode hash m)) :
    Justified engines hash history i .network a := by
  cases m with
  | hello id =>
    rcases h with rfl | rfl | h
    · exact ⟨j, .hello id, hauthored.symm, rfl, hsent⟩
    · exact ⟨⟨j, hauthored.symm, hsent⟩, fun hown => hforeign (congrArg some hown)⟩
    · exact Sending.justified_greeting hhash h _
  | migrate id gene fitness =>
    obtain ⟨hid, f, hpassed, rfl, rfl⟩ := hauthored
    rcases h with rfl | rfl | ⟨accepted, h⟩
    · exact ⟨j, .migration id f, hid.symm, rfl, hsent⟩
    · refine ⟨⟨j, f, hid.symm, hpassed, hsent, ?_⟩, fun hown => hforeign (congrArg some hown)⟩
      rw [Formula.withFitness, Binary64.clampUnit_of_within hvalid]
    · subst hhash
      exact h.justified (m := .ack _) trivial _
  | ack status =>
    rcases h with rfl | rfl
    · trivial
    · trivial

end Routines

end AffineSwarm.Engine
