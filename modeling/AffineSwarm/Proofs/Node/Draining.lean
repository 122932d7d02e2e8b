import AffineSwarm.Proofs.Address.Text
import AffineSwarm.Proofs.Json.Binary64
import AffineSwarm.Proofs.Ledger.Chain
import AffineSwarm.Proofs.Node.Reachable

/-!
# Draining

To drain the queue of a node is to take its events one at a time until there is none, and to
apply each (`drains_drainEvents`). The formulas among the events immigrate one after the
other, each into the pool that those before it left; so whether a formula settles, and in
which slot, is a matter of the pool and of the formulas alone (`Pool.outcomes`,
`Pool.settlers`).

What is recorded of this follows from who settled. It is a second pass over the settlers
(`handleEvents_eq`), of which neither the pool nor the counts take notice. A ledger records
the first settlers, as many as it has room for, and fails for the others
(`recordAll_ledger`). Each record tells when the clock was read for it, and its payload is the
text of an object that says who settled (`Recounts`).

## Results

* `handleEvents_eq` — applying events is counting, absorbing, and recording who settled.
* `drains_drainEvents` — draining takes the events one at a time.
* `recordAll_ledger` — what a ledger records of the settlers.
* `parse?_migrationPayload` — what the payload of a record says.
* `draining_is_faithful` — draining as a whole.
-/

namespace AffineSwarm

-- ---------------------------------------------------------------------------
-- Immigrants and settlers
-- ---------------------------------------------------------------------------

/-- A formula that came in an event: how many events were before that, from whom and where from
it came, and which formula it is. -/
structure Immigrant where
  place : Nat
  sender : NodeId
  origin : Address
  formula : Formula
  deriving DecidableEq

/-- An immigrant that took a slot of the pool. -/
structure Settler extends Immigrant where
  slot : Nat
  deriving DecidableEq

def Event.isGreeting : Event → Bool
  | .hello _ _ => true
  | .formula _ _ _ => false

/-- The formulas that came in some events, of which the first has the given place. -/
def immigrants : Nat → List Event → List Immigrant
  | _, [] => []
  | place, .hello _ _ :: rest => immigrants (place + 1) rest
  | place, .formula sender origin f :: rest =>
    ⟨place, sender, origin, f⟩ :: immigrants (place + 1) rest

/-- What is recorded of a settler. The clock is read when its event has come up. -/
def Settler.entry (clock : WallClock) (s : Settler) : Ledger.Entry :=
  ⟨clock s.place, formulaMigrated, Node.migrationPayload s.sender s.origin s.formula s.slot⟩

/-- Every event is a greeting or has an immigrant. -/
theorem greetings_add_immigrants (place : Nat) (events : List Event) :
    events.countP (·.isGreeting) + (immigrants place events).length = events.length := by
  induction events generalizing place with
  | nil => rfl
  | cons event rest ih =>
    have hrest := ih (place + 1)
    cases event with
    | hello id address =>
      rw [List.countP_cons_of_pos rfl, immigrants, List.length_cons]
      omega
    | formula sender origin f =>
      rw [List.countP_cons_of_neg Bool.false_ne_true, immigrants, List.length_cons,
        List.length_cons]
      omega

namespace Pool

variable {σ : Type}

/-- The slot that a formula took, if it took one. -/
def Absorbed.slot? : Absorbed → Option Nat
  | .replaced slot => some slot
  | .alreadyPresent _ => none

/-- Absorb formulas one after the other. -/
def absorbAll (p : Pool σ) (fs : List Formula) : Pool σ := fs.foldl (fun p f => (p.absorb f).2) p

/-- What becomes of formulas that are absorbed one after the other. -/
def outcomes (p : Pool σ) : List Formula → List Absorbed
  | [] => []
  | f :: rest => (p.absorb f).1 :: (p.absorb f).2.outcomes rest

/-- The immigrants that take a slot if they are absorbed one after the other, in order. -/
def settlers (p : Pool σ) (immigrants : List Immigrant) : List Settler :=
  (immigrants.zip (p.outcomes (immigrants.map Immigrant.formula))).filterMap
    fun (i, outcome) => outcome.slot?.map fun slot => ⟨i, slot⟩

/-- A formula either takes a slot or is a duplicate. -/
theorem settled_add_duplicates (p : Pool σ) (fs : List Formula) :
    (p.outcomes fs).countP (·.slot?.isSome) + (p.outcomes fs).countP (·.slot?.isNone) =
      fs.length := by
  induction fs generalizing p with
  | nil => rfl
  | cons f rest ih =>
    have hrest := ih (p.absorb f).2
    rw [outcomes, List.countP_cons, List.countP_cons, List.length_cons]
    cases (p.absorb f).1 with
    | replaced slot =>
      show _ + 1 + (_ + 0) = _
      omega
    | alreadyPresent slot =>
      show _ + 0 + (_ + 1) = _
      omega

theorem settlers_of_replaced {p : Pool σ} {i : Immigrant} {slot : Nat} {pool : Pool σ}
    (h : p.absorb i.formula = (.replaced slot, pool)) (rest : List Immigrant) :
    p.settlers (i :: rest) = ⟨i, slot⟩ :: pool.settlers rest := by
  simp only [settlers, List.map_cons, outcomes, h, List.zip_cons_cons, List.filterMap_cons,
    Absorbed.slot?, Option.map_some]

theorem settlers_of_alreadyPresent {p : Pool σ} {i : Immigrant} {slot : Nat} {pool : Pool σ}
    (h : p.absorb i.formula = (.alreadyPresent slot, pool)) (rest : List Immigrant) :
    p.settlers (i :: rest) = pool.settlers rest := by
  simp only [settlers, List.map_cons, outcomes, h, List.zip_cons_cons, List.filterMap_cons,
    Absorbed.slot?, Option.map_none]

/-- As many immigrants settle as there are formulas that take a slot. -/
theorem length_settlers (p : Pool σ) (is : List Immigrant) :
    (p.settlers is).length =
      (p.outcomes (is.map Immigrant.formula)).countP (·.slot?.isSome) := by
  induction is generalizing p with
  | nil => rfl
  | cons i rest ih =>
    rw [List.map_cons, outcomes, List.countP_cons]
    cases h : p.absorb i.formula with
    | mk outcome pool =>
      cases outcome with
      | replaced slot =>
        rw [settlers_of_replaced h, List.length_cons, ih]
        rfl
      | alreadyPresent slot =>
        rw [settlers_of_alreadyPresent h, ih]
        rfl

end Pool

namespace Node

variable {α β : Type} [AuditSink α] [AuditSink β]

-- ---------------------------------------------------------------------------
-- Applying events
-- ---------------------------------------------------------------------------

/-- Record settlers one after the other: how often that failed, and the trail after that. -/
def recordAll (clock : WallClock) : List Settler → Option α → Nat × Option α
  | [], audit => (0, audit)
  | s :: rest, audit =>
    let (recorded, audit) :=
      recordMigration (clock s.place) s.sender s.origin s.formula s.slot audit
    let (failures, audit) := recordAll clock rest audit
    ((if recorded then 0 else 1) + failures, audit)

/-- Applying events is counting them, absorbing the formulas, and recording who settled. -/
theorem handleEvents_eq (n : Node α) (clock : WallClock) (reading : Nat) (events : List Event)
    (report : DrainReport) :
    let formulas := (immigrants reading events).map Immigrant.formula
    let outcomes := n.pool.outcomes formulas
    let recorded := recordAll clock (n.pool.settlers (immigrants reading events)) n.audit
    n.handleEvents clock reading events report =
      (⟨report.hellos + events.countP (·.isGreeting),
        report.formulas + formulas.length,
        report.absorbed + outcomes.countP (·.slot?.isSome),
        report.duplicates + outcomes.countP (·.slot?.isNone),
        report.auditFailures + recorded.1⟩,
      { n with pool := n.pool.absorbAll formulas, audit := recorded.2 }) := by
  induction events generalizing n reading report with
  | nil => rfl
  | cons event rest ih =>
    rw [handleEvents]
    cases event with
    | hello id address =>
      have hcount := ih n (reading + 1) { report with hellos := report.hellos + 1 }
      rw [immigrants, List.countP_cons_of_pos rfl, Nat.add_comm (rest.countP _), ← Nat.add_assoc]
      exact hcount
    | formula sender origin f =>
      rw [immigrants, List.countP_cons_of_neg Bool.false_ne_true]
      simp only [List.map_cons, List.length_cons]
      cases habsorb : n.pool.absorb f with
      | mk outcome pool =>
        cases outcome with
        | replaced slot =>
          rw [Pool.settlers_of_replaced habsorb]
          simp only [handleEvent, habsorb, ih, Pool.outcomes, Pool.absorbAll, recordAll,
            List.countP_cons, List.foldl_cons, Pool.Absorbed.slot?, Option.isSome_some,
            Option.isNone_some, Bool.false_eq_true, if_true, if_false]
          simp only [Nat.add_assoc, Nat.add_comm 1, Nat.add_zero]
        | alreadyPresent slot =>
          rw [Pool.settlers_of_alreadyPresent habsorb]
          simp only [handleEvent, habsorb, ih, Pool.outcomes, Pool.absorbAll,
            List.countP_cons, List.foldl_cons, Pool.Absorbed.slot?, Option.isSome_none,
            Option.isNone_none, Bool.false_eq_true, if_true, if_false]
          simp only [Nat.add_assoc, Nat.add_comm 1, Nat.add_zero]

-- ---------------------------------------------------------------------------
-- One event at a time
-- ---------------------------------------------------------------------------

/-- Take an event and apply it, until there is none: from the next reading of the clock, a
report and a node to the report and the node in the end. -/
inductive Drains (clock : WallClock) :
    Nat → DrainReport → Node α → DrainReport × Node α → Prop
  | empty {reading : Nat} {report : DrainReport} {n : Node α} {engine : Engine}
      (h : n.engine.nextEvent = (none, engine)) :
      Drains clock reading report n (report, { n with engine })
  | event {reading : Nat} {report : DrainReport} {n : Node α} {event : Event} {engine : Engine}
      {drained : DrainReport × Node α} (h : n.engine.nextEvent = (some event, engine))
      (rest : Drains clock (reading + 1)
        ({ n with engine }.handleEvent (clock reading) event report).1
        ({ n with engine }.handleEvent (clock reading) event report).2 drained) :
      Drains clock reading report n drained

/-- Taking one event leaves to a drain what comes after that. -/
theorem drainEvents_nextEvent {e : Engine} {event : Event} {rest : List Event}
    (h : e.events.Represents (event :: rest)) :
    e.nextEvent.2.drainEvents.2 = e.drainEvents.2 := by
  obtain ⟨htaken, hrest⟩ := h.pop
  have hpop : e.events.pop = (some event, e.events.pop.2) := Prod.ext htaken rfl
  simp only [Engine.drainEvents, Engine.nextEvent, Ring.drain, h.length_eq, hrest.length_eq,
    List.length_cons, Ring.popMany]
  rw [hpop]

theorem drains_handleEvents {n : Node α} {waiting : List Event}
    (h : n.engine.events.Represents waiting) (clock : WallClock) (reading : Nat)
    (report : DrainReport) :
    Drains clock reading report n ((n.handleEvents clock reading waiting report).1,
      { (n.handleEvents clock reading waiting report).2 with
        engine := n.engine.drainEvents.2 }) := by
  induction waiting generalizing n reading report with
  | nil =>
    have hnone : n.engine.nextEvent = (none, n.engine) := by
      rw [Engine.nextEvent, h.pop_nil]
    have hdrain : n.engine.drainEvents.2 = n.engine := by
      rw [Engine.drainEvents, Ring.drain, h.length_eq]
      rfl
    rw [hdrain]
    exact .empty hnone
  | cons event rest ih =>
    obtain ⟨htaken, hrest⟩ := h.pop
    have hnext : n.engine.nextEvent = (some event, n.engine.nextEvent.2) := Prod.ext htaken rfl
    refine .event hnext ?_
    rw [handleEvent_engine, handleEvents, ← drainEvents_nextEvent h]
    have hdrains := ih (n := { (n.handleEvent (clock reading) event report).2 with
      engine := n.engine.nextEvent.2 }) hrest (reading + 1)
      (n.handleEvent (clock reading) event report).1
    rw [handleEvents_engine] at hdrains
    exact hdrains

/-- Draining takes the events one at a time. -/
theorem drains_drainEvents {n : Node α} {waiting : List Event}
    (h : n.engine.events.Represents waiting) (clock : WallClock) :
    Drains clock 0 .zero n (n.drainEvents clock) := by
  rw [drainEvents_eq h]
  exact drains_handleEvents h clock 0 .zero

-- ---------------------------------------------------------------------------
-- What is recorded
-- ---------------------------------------------------------------------------

/-- To record a settler in a ledger is to try to record its entry. -/
theorem recordMigration_ledger (clock : WallClock) (s : Settler) (l : Ledger) :
    recordMigration (clock s.place) s.sender s.origin s.formula s.slot (some l) =
      ((l.submit (s.entry clock)).1.isOk, some (l.submit (s.entry clock)).2) := by
  have happend : l.append (s.entry clock).time (s.entry clock).eventType (s.entry clock).payload =
      AuditSink.append l (clock s.place) formulaMigrated
        (migrationPayload s.sender s.origin s.formula s.slot) := rfl
  unfold recordMigration Ledger.submit
  rw [happend]
  cases h : AuditSink.append l (clock s.place) formulaMigrated
    (migrationPayload s.sender s.origin s.formula s.slot) with
  | ok l' => simp only [h, Except.isOk, Except.toBool]
  | error e => simp only [h, Except.isOk, Except.toBool]

/-- A ledger records the first settlers, as many as it has room for, and fails for the
others. -/
theorem recordAll_ledger (clock : WallClock) (settlers : List Settler) (l : Ledger) :
    recordAll clock settlers (some l) =
      (settlers.length - (l.capacity - l.records.length),
        some (l.record (settlers.map (Settler.entry clock)))) := by
  induction settlers generalizing l with
  | nil =>
    rw [recordAll, List.length_nil, Nat.zero_sub]
    rfl
  | cons s rest ih =>
    rw [recordAll, recordMigration_ledger, List.map_cons, Ledger.record, List.foldl_cons,
      ← Ledger.record, List.length_cons]
    simp only [ih]
    rcases l.submit_cases (s.entry clock) with ⟨hfull, h⟩ | ⟨hroom, h⟩
    · have hfailures : 1 + (rest.length - (l.capacity - l.records.length)) =
          rest.length + 1 - (l.capacity - l.records.length) := by omega
      rw [h, ← hfailures]
      rfl
    · have hfailures : 0 + (rest.length - (l.capacity - (l.records.length + 1))) =
          rest.length + 1 - (l.capacity - l.records.length) := by omega
      rw [h, ← hfailures, ← List.length_singleton, ← List.length_append]
      rfl

/-- The payload of a record is the text of an object. -/
theorem parse?_migrationPayload (sender : NodeId) (origin : Address) (f : Formula) (slot : Nat) :
    Json.parse? (migrationPayload sender origin f slot) =
      some (Json.ofFields [("from", .ofNat sender.toNat), ("address", .ofText origin.text),
        ("gene", .ofText f.gene.text), ("fitness", .ofBinary64 f.fitness),
        ("slot", .ofNat slot)]) := by
  refine Json.parse?_text (Json.isPrintable_ofFields ?_)
  simp [Json.isPrintable_ofNat, Json.isPrintable_ofText, Json.isPrintable_ofBinary64]

/-- A record tells of a settler. Its time is what the clock showed for the event, and its payload
reads as an object: who sent the formula, from where, its gene, its fitness, and the slot that it
took. The text of the address reads back as the address, and the number as the bits of the
fitness; a fitness that is not finite is written as `null`. -/
structure Recounts (clock : WallClock) (r : AuditRecord) (s : Settler) : Prop where
  time : r.timestamp = clock s.place
  eventType : r.eventType = "formula_migrated"
  payload : Json.parse? r.payload =
    some (Json.ofFields [("from", .ofNat s.sender.toNat), ("address", .ofText s.origin.text),
      ("gene", .ofText s.formula.gene.text), ("fitness", .ofBinary64 s.formula.fitness),
      ("slot", .ofNat s.slot)])
  origin : Address.ofText? s.origin.text = some s.origin
  fitness : (Json.ofBinary64 s.formula.fitness).Shows s.formula.fitness

theorem recounts_of_entry {clock : WallClock} {r : AuditRecord} {s : Settler}
    (h : Ledger.entryOf r = s.entry clock) : Recounts clock r s where
  time := congrArg Ledger.Entry.time h
  eventType := congrArg Ledger.Entry.eventType h
  payload := by
    have hpayload : r.payload = _ := congrArg Ledger.Entry.payload h
    rw [hpayload]
    exact parse?_migrationPayload ..
  origin := Address.ofText?_text _
  fitness := Json.shows_ofBinary64 _

-- ---------------------------------------------------------------------------
-- Draining as a whole
-- ---------------------------------------------------------------------------

/-- The same node with another audit trail. -/
def withAudit (audit : Option β) (n : Node α) : Node β := ⟨n.pool, n.engine, audit, n.stream⟩

omit [AuditSink α] in
/-- What draining comes to, whatever the audit trail. -/
theorem drainEvents_withAudit (n : Node α) (clock : WallClock) {waiting : List Event}
    (h : n.engine.events.Represents waiting) (audit : Option β) :
    let formulas := (immigrants 0 waiting).map Immigrant.formula
    let outcomes := n.pool.outcomes formulas
    let recorded := recordAll clock (n.pool.settlers (immigrants 0 waiting)) audit
    (n.withAudit audit).drainEvents clock =
      (⟨waiting.countP (·.isGreeting), formulas.length, outcomes.countP (·.slot?.isSome),
        outcomes.countP (·.slot?.isNone), recorded.1⟩,
      ⟨n.pool.absorbAll formulas, n.engine.drainEvents.2, recorded.2, n.stream⟩) := by
  have hqueue : (n.withAudit audit).engine.events.Represents waiting := h
  rw [drainEvents_eq hqueue, handleEvents_eq]
  simp only [DrainReport.zero, Nat.zero_add]
  rfl

/-- **Draining is a fold with a faithful audit trail.** Whatever waits in the queue of a node:

* the queue is empty afterwards, the rest of the engine is as it was, and the pool is the one
  that absorbs the formulas that waited, one after the other; it is where taking one event at
  a time ends;
* every event is counted as a greeting or as a formula, and every formula as one that took a
  slot or as a duplicate;
* with another audit trail, or with none, pool, engine and counts are the same but for the
  failures of that trail;
* with a ledger for a trail, new records stand behind those that were there: of the first
  settlers in order, as many as there is room for, each telling when it was recorded, who sent
  the formula, from where, its gene, its fitness and the slot that it took; for all other
  settlers the trail has failed. -/
theorem draining_is_faithful (n : Node α) (clock : WallClock) {waiting : List Event}
    (queue : n.engine.events.Represents waiting) :
    let formulas := (immigrants 0 waiting).map Immigrant.formula
    let settlers := n.pool.settlers (immigrants 0 waiting)
    let drained := n.drainEvents clock
    (drained.2.engine.events.Represents [] ∧
      drained.2.engine = { n.engine with events := drained.2.engine.events } ∧
      drained.2.pool = n.pool.absorbAll formulas ∧
      Drains clock 0 .zero n drained) ∧
    (drained.1.hellos + drained.1.formulas = waiting.length ∧
      drained.1.formulas = drained.1.absorbed + drained.1.duplicates ∧
      drained.1.absorbed = (n.pool.outcomes formulas).countP (·.slot?.isSome) ∧
      drained.1.absorbed = settlers.length) ∧
    (∀ {γ : Type} [AuditSink γ] (audit : Option γ),
      let other := (n.withAudit audit).drainEvents clock
      other.2 = drained.2.withAudit other.2.audit ∧
        other.1 = { drained.1 with auditFailures := other.1.auditFailures }) ∧
    ∀ l : Ledger,
      let logged := (n.withAudit (some l)).drainEvents clock
      let written := min (l.capacity - l.records.length) drained.1.absorbed
      ∃ new, logged.2.audit = some { l with records := l.records ++ new } ∧
        new.length = written ∧
        List.Forall₂ (Recounts clock) new (settlers.take written) ∧
        logged.1.auditFailures = drained.1.absorbed - written := by
  intro formulas settlers drained
  have hdrained : drained = _ := n.drainEvents_withAudit clock queue n.audit
  have hlength : settlers.length = _ := n.pool.length_settlers (immigrants 0 waiting)
  refine ⟨⟨?_, ?_, ?_, drains_drainEvents queue clock⟩, ⟨?_, ?_, ?_, ?_⟩, ?_, ?_⟩
  · rw [hdrained]
    exact Engine.represents_drainEvents queue
  · rw [hdrained]
    rfl
  · rw [hdrained]
  · rw [hdrained, List.length_map]
    exact greetings_add_immigrants 0 waiting
  · rw [hdrained]
    exact (n.pool.settled_add_duplicates formulas).symm
  · rw [hdrained]
  · rw [hdrained, hlength]
  · intro γ _ audit other
    have hother : other = _ := n.drainEvents_withAudit clock queue audit
    rw [hother, hdrained]
    exact ⟨rfl, rfl⟩
  · intro l logged written
    have hlogged : logged = _ := n.drainEvents_withAudit clock queue (some l)
    have habsorbed : drained.1.absorbed = settlers.length := by rw [hdrained, hlength]
    have hwritten : written = min (l.capacity - l.records.length) settlers.length := by
      rw [← habsorbed]
    obtain ⟨new, hrecord, hnew⟩ := l.record_append (settlers.map (Settler.entry clock))
    have htake : new.map Ledger.entryOf = (settlers.take written).map (Settler.entry clock) := by
      rw [hnew, hwritten, ← List.map_take, List.take_eq_take_min]
    have hentries : List.Forall₂ (fun r s => Ledger.entryOf r = s.entry clock) new
        (settlers.take written) := by
      rw [← List.forall₂_map_right_iff, ← List.forall₂_map_left_iff (f := Ledger.entryOf), htake]
      exact List.forall₂_same.mpr fun _ _ => rfl
    refine ⟨new, ?_, ?_, hentries.imp fun _ _ => recounts_of_entry, ?_⟩
    · rw [hlogged, recordAll_ledger]
      exact congrArg some hrecord
    · rw [hentries.length_eq, List.length_take]
      omega
    · rw [hlogged, recordAll_ledger, habsorbed]
      show settlers.length - _ = _
      omega

/-- Two formulas arrive, the first of them twice, and the ledger has room for one record. -/
theorem draining_is_faithful_of_repetition :
    let f : Formula := ⟨⟨[1, 2, 3, 4], by decide⟩, .half, .zero⟩
    let f' : Formula := ⟨⟨[4, 3, 2, 1], by decide⟩, .one, .zero⟩
    let waiting : List Event := [.hello 2 (.anyHost 8), .formula 2 (.anyHost 8) f,
      .formula 3 (.anyHost 9) f, .formula 3 (.anyHost 9) f']
    let pool : Pool ChaCha.Stream :=
      ⟨.standard, [.ofGene .empty, .ofGene .empty], .empty, .ofSeed 42, 0, nofun⟩
    let engine := Engine.fresh (.standard 1 0 ⟨[]⟩) (.anyHost 7)
    let queue := waiting.foldl (fun queue event => (queue.push event).2) engine.events
    let n : Node Ledger := ofParts pool { engine with events := queue } none
    let clock : WallClock := fun reading => 1000 + .ofNat reading
    let l := Ledger.empty engine.setup.hash 1
    n.engine.events.Represents waiting ∧
      (n.drainEvents clock).1 = ⟨1, 3, 2, 1, 0⟩ ∧
      ((n.withAudit (some l)).drainEvents clock).1.auditFailures = 1 ∧
      ∃ r, ((n.withAudit (some l)).drainEvents clock).2.audit = some { l with records := [r] } ∧
        r.timestamp = 1001 ∧ r.eventType = "formula_migrated" ∧
        Json.parse? r.payload = some (.object [(some "from", .number ['2']),
          (some "address", .string (some "0.0.0.0:8")), (some "gene", .string (some "1234")),
          (some "fitness", .number ['0', '.', '5']), (some "slot", .number ['1'])]) := by
  intro f f' waiting pool engine queue n clock l
  have hempty : engine.events.Represents [] := Ring.represents_empty _
  have hqueue : n.engine.events.Represents waiting := by
    have hfirst := (hempty.push (by decide) (.hello 2 (.anyHost 8))).2
    have hsecond := (hfirst.push (by decide) (.formula 2 (.anyHost 8) f)).2
    have hthird := (hsecond.push (by decide) (.formula 3 (.anyHost 9) f)).2
    exact (hthird.push (by decide) (.formula 3 (.anyHost 9) f')).2
  have hreport : (n.drainEvents clock).1 = ⟨1, 3, 2, 1, 0⟩ := by decide +kernel
  have hfirst : (n.pool.settlers (immigrants 0 waiting)).take 1 =
      [⟨⟨1, 2, .anyHost 8, f⟩, 1⟩] := by decide +kernel
  obtain ⟨-, -, -, hledger⟩ := draining_is_faithful n clock hqueue
  obtain ⟨new, haudit, hlength, hnew, hfailures⟩ := hledger l
  rw [hreport] at hlength hnew hfailures
  obtain ⟨r, rfl⟩ := List.length_eq_one_iff.mp hlength
  have hrecord : List.Forall₂ (Recounts clock) [r]
      ((n.pool.settlers (immigrants 0 waiting)).take 1) := hnew
  rw [hfirst] at hrecord
  obtain ⟨htime, htype, hpayload, -, -⟩ := (List.forall₂_cons.mp hrecord).1
  have htext : Decimal.Layout.json.text .half = "0.5" := by decide +kernel
  have hfitness : Json.ofBinary64 .half = .number ['0', '.', '5'] := by
    rw [Json.ofBinary64, if_pos (by decide), htext]
    rfl
  have hsender : Json.ofNat (2 : UInt32).toNat = .number ['2'] := rfl
  have horigin : Json.ofText (Address.anyHost 8).text = .string (some "0.0.0.0:8") := rfl
  have hgene : Json.ofText f.gene.text = .string (some "1234") := rfl
  have hslot : Json.ofNat 1 = .number ['1'] := rfl
  rw [hsender, horigin, hgene, hfitness, hslot] at hpayload
  exact ⟨hqueue, hreport, hfailures, r, haudit, htime, htype, hpayload⟩

end Node

end AffineSwarm
