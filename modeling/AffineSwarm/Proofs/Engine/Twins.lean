import AffineSwarm.Proofs.Engine.Rejection

/-!
# What a send may tell

Whether a send succeeds is told to an engine in three ways: the routine that made it goes on
in another way, a neighbor is blamed, and another counter counts it. Two engines that differ
in no more than what was told so are the same once it is forgiven (`Engine.forgiven`), and no
access that takes notice of anything else tells them apart (`perform_forgiven`).

Routines are compared up to what they do in silence, which is to blame and to count. Twins
make the same accesses else, in the same order (`Routine.Twin`). Each routine of an engine is
a twin of itself: however its sends end, it goes on in the same way
(`twin_upkeep`, `twin_handle`, `twin_begun`).
-/

namespace AffineSwarm

-- ---------------------------------------------------------------------------
-- Neighbors without their failures
-- ---------------------------------------------------------------------------

namespace Neighbor

/-- The neighbor, but for how often sends to it have failed. -/
def unblamed (n : Neighbor) : Neighbor := { n with failures := 0 }

namespace Table

def unblamed (t : Table) : Table := { t with entries := t.entries.map Neighbor.unblamed }

/-- A change that does not look at failures changes the same entry. -/
theorem map_unblamed_modifyFirst (test : Neighbor → Bool) (change : Neighbor → Neighbor)
    (htest : ∀ n, test n.unblamed = test n)
    (hchange : ∀ n, change n.unblamed = (change n).unblamed) (entries : List Neighbor) :
    modifyFirst test change (entries.map Neighbor.unblamed) =
      (modifyFirst test change entries).map Neighbor.unblamed := by
  induction entries with
  | nil => rfl
  | cons n rest ih =>
    simp only [List.map_cons, modifyFirst, htest]
    split
    · rw [List.map_cons, hchange]
    · rw [List.map_cons, ih]

theorem upsert_unblamed (t : Table) (id : NodeId) (address : Address) (now : Nat) :
    t.unblamed.upsert id address now =
      (t.upsert id address now).map fun (outcome, t) => (outcome, t.unblamed) := by
  have hany : (t.entries.map Neighbor.unblamed).any (·.id == id) = t.entries.any (·.id == id) := by
    rw [List.any_map]
    rfl
  have hmodify := map_unblamed_modifyFirst (·.id == id) (·.heardAt address now) (fun _ => rfl)
    (fun _ => rfl) t.entries
  simp only [upsert, unblamed, hany, hmodify, List.length_map]
  split
  · rfl
  · split
    · rfl
    · simp [Except.map, Neighbor.unblamed]

theorem touch_unblamed (t : Table) (address : Address) (now : Nat) :
    (t.unblamed.touch address now).2 = (t.touch address now).2.unblamed := by
  have hmodify := map_unblamed_modifyFirst (·.address == address)
    (fun n => n.heardAt n.address now) (fun _ => rfl) (fun _ => rfl) t.entries
  simp only [touch, unblamed, hmodify]

/-- A failure that is recorded is all that changes. -/
theorem unblamed_recordFailure {t t' : Table} {id : NodeId} {count : UInt32}
    (h : t.recordFailure id = .ok (count, t')) : t'.unblamed = t.unblamed := by
  rw [recordFailure] at h
  split at h
  · cases h
  · cases h
    have hentries : (modifyFirst (·.id == id) failedOnce t.entries).map Neighbor.unblamed =
        t.entries.map Neighbor.unblamed := by
      refine map_modifyFirst _ _ (fun n => ?_) _
      rfl
    rw [unblamed, hentries, unblamed]

theorem evictStale_unblamed (t : Table) (now staleAfter : Nat) :
    t.unblamed.evictStale now staleAfter =
      ((t.evictStale now staleAfter).1.map Neighbor.unblamed,
        (t.evictStale now staleAfter).2.unblamed) := by
  simp only [evictStale, unblamed, List.filter_map]
  rfl

theorem pick?_unblamed (t : Table) (rand : UInt64) :
    t.unblamed.pick? rand = (t.pick? rand).map Neighbor.unblamed := by
  simp only [pick?, unblamed, List.length_map, List.getElem?_map]

end Table

end Neighbor

-- ---------------------------------------------------------------------------
-- Engines but for what sends have told
-- ---------------------------------------------------------------------------

/-- The counters that tell how sends ended. -/
def Counter.tells : Counter → Bool
  | .hellosSent | .formulasSent | .acksSent | .sendFailures => true
  | _ => false

/-- The counts, but for those that tell how sends ended. -/
def Stats.untold (s : Stats) : Stats :=
  { s with hellosSent := 0, formulasSent := 0, acksSent := 0, sendFailures := 0 }

/-- The attempt, whether it succeeded or not. -/
def Attempt.untold (a : Attempt) : Attempt := { a with succeeded := true }

namespace Engine

/-- The engine, but for what it was told of how its sends ended. -/
def forgiven (e : Engine) : Engine :=
  { e with
    neighbors := e.neighbors.unblamed
    stats := e.stats.untold
    outbox := e.outbox.map Attempt.untold }

/-- Two engines that differ in nothing but what they were told of how their sends ended: in
failures of neighbors, in the counters of sends, and in which attempts succeeded. -/
structure Akin (e e' : Engine) : Prop where
  setup : e'.setup = e.setup
  capacity : e'.neighbors.capacity = e.neighbors.capacity
  neighbors : e'.neighbors.entries.map (fun n => (n.id, n.address, n.lastSeen)) =
    e.neighbors.entries.map fun n => (n.id, n.address, n.lastSeen)
  events : e'.events = e.events
  running : e'.running = e.running
  attempts : e'.attempts = e.attempts
  outbox : e'.outbox.map (fun a => (a.target, a.frame)) =
    e.outbox.map fun a => (a.target, a.frame)
  counters : ∀ counter, counter.tells = false → e'.stats.read counter = e.stats.read counter

theorem akin_of_forgiven_eq {e e' : Engine} (h : e'.forgiven = e.forgiven) : Akin e e' where
  setup := (congrArg Engine.setup h :)
  capacity := (congrArg (·.neighbors.capacity) h :)
  neighbors := by
    have hentries := congrArg
      (·.neighbors.entries.map fun n => (n.id, n.address, n.lastSeen)) h
    simp only [forgiven, Neighbor.Table.unblamed, List.map_map] at hentries
    exact hentries
  events := (congrArg Engine.events h :)
  running := (congrArg Engine.running h :)
  attempts := (congrArg Engine.attempts h :)
  outbox := by
    have hattempts := congrArg (·.outbox.map fun a => (a.target, a.frame)) h
    simp only [forgiven, List.map_map] at hattempts
    exact hattempts
  counters counter htells := by
    have hread := congrArg (·.stats.read counter) h
    cases counter <;> first | exact hread | cases htells

-- ---------------------------------------------------------------------------
-- Accesses
-- ---------------------------------------------------------------------------

/-- The accesses that only keep what a send told: they blame or count. -/
def Silent : Access → Prop
  | .recordFailure _ => True
  | .count counter _ => counter.tells = true
  | _ => False

/-- The answer to an access, but for what a send told. -/
def Access.bare : (a : Access) → a.Answer → a.Answer
  | .send _ _, _ => true
  | .evict _ _, gone => gone.map Neighbor.unblamed
  | .snapshot, neighbors => neighbors.map Neighbor.unblamed
  | .pick _, neighbor => neighbor.map Neighbor.unblamed
  | _, answer => answer

/-- Nothing is learnt from a silent access. -/
theorem Silent.answer_eq {a : Access} (h : Silent a) (answer answer' : a.Answer) :
    answer = answer' := by
  cases a <;> first | rfl | exact h.elim

theorem Silent.nonempty {a : Access} (h : Silent a) : Nonempty a.Answer := by
  cases a <;> first | exact ⟨()⟩ | exact h.elim

/-- A silent access changes nothing but what is forgiven. -/
theorem Silent.forgiven_eq {a : Access} (h : Silent a) (socket : Socket) (e : Engine) :
    (a.perform socket e).2.forgiven = e.forgiven := by
  cases a with
  | recordFailure id =>
    cases hfailed : e.neighbors.recordFailure id with
    | error error => simp only [Access.perform, hfailed]
    | ok result =>
      have htable := Neighbor.Table.unblamed_recordFailure hfailed
      simp only [Access.perform, hfailed, forgiven, htable]
  | count counter n => cases counter <;> first | rfl | cases h
  | _ => exact h.elim

theorem forgiven_noteAttempt (e : Engine) (a : Attempt) :
    (e.noteAttempt a).forgiven = e.forgiven.noteAttempt a.untold := by
  simp only [noteAttempt, forgiven, List.map_append, List.map_cons, List.map_nil]

theorem forgiven_count (e : Engine) (n : Nat) (counter : Counter) :
    { e with stats := e.stats.add n counter }.forgiven =
      { e.forgiven with stats := (e.forgiven.stats.add n counter).untold } := by
  cases counter <;> rfl

/-- What recording a node gives and leaves is told from what is forgiven. -/
theorem forgiven_upsert (socket : Socket) (e : Engine) (id : NodeId) (address : Address)
    (now : Nat) :
    ((Access.upsert id address now).perform socket e).1 =
        (e.forgiven.neighbors.upsert id address now).map Prod.fst ∧
      ((Access.upsert id address now).perform socket e).2.forgiven =
        match e.forgiven.neighbors.upsert id address now with
        | .ok (_, neighbors) => { e.forgiven with neighbors }
        | .error _ => e.forgiven := by
  have hupsert : e.forgiven.neighbors.upsert id address now = _ :=
    e.neighbors.upsert_unblamed id address now
  rw [hupsert, Access.perform]
  cases e.neighbors.upsert id address now with
  | error error => exact ⟨rfl, rfl⟩
  | ok result => exact ⟨rfl, rfl⟩

/-- Whatever sends have told, and however they end, an access gives the same but for that, and
leaves the same. -/
theorem perform_forgiven {e e' : Engine} (h : e'.forgiven = e.forgiven) (socket socket' : Socket)
    (a : Access) :
    a.bare (a.perform socket' e').1 = a.bare (a.perform socket e).1 ∧
      (a.perform socket' e').2.forgiven = (a.perform socket e).2.forgiven := by
  have hneighbors : e'.neighbors.unblamed = e.neighbors.unblamed := congrArg Engine.neighbors h
  cases a with
  | send frame target =>
    have hnoted := congrArg (·.noteAttempt ⟨target, frame, true⟩) h
    simp only [Access.perform, forgiven_noteAttempt]
    exact ⟨rfl, hnoted⟩
  | upsert id address now =>
    obtain ⟨hanswer, hleft⟩ := forgiven_upsert socket e id address now
    obtain ⟨hanswer', hleft'⟩ := forgiven_upsert socket' e' id address now
    rw [h] at hanswer' hleft'
    exact ⟨hanswer'.trans hanswer.symm, hleft'.trans hleft.symm⟩
  | touch address now =>
    have htouch := congrArg (fun t => (t.touch address now).2) hneighbors
    simp only [Neighbor.Table.touch_unblamed] at htouch
    exact ⟨rfl, congrArg₂ (fun f neighbors => { f with neighbors }) h htouch⟩
  | recordFailure id =>
    have hsilent : Silent (.recordFailure id) := trivial
    exact ⟨rfl, (hsilent.forgiven_eq socket' e').trans (h.trans (hsilent.forgiven_eq ..).symm)⟩
  | evict now staleAfter =>
    have hevict := congrArg (·.evictStale now staleAfter) hneighbors
    simp only [Neighbor.Table.evictStale_unblamed, Prod.mk.injEq] at hevict
    exact ⟨hevict.1, congrArg₂ (fun f neighbors => { f with neighbors }) h hevict.2⟩
  | snapshot => exact ⟨congrArg Neighbor.Table.entries hneighbors, h⟩
  | pick rand =>
    have hpick := congrArg (·.pick? rand) hneighbors
    simp only [Neighbor.Table.pick?_unblamed] at hpick
    exact ⟨hpick, h⟩
  | push event =>
    exact ⟨congrArg (fun f => (f.events.push event).1) h,
      congrArg (fun f => { f with events := (f.events.push event).2 }) h⟩
  | pop =>
    exact ⟨congrArg (fun f => f.events.pop.1) h,
      congrArg (fun f => { f with events := f.events.pop.2 }) h⟩
  | drain =>
    exact ⟨congrArg (fun f => f.events.drain.1) h,
      congrArg (fun f => { f with events := f.events.drain.2 }) h⟩
  | count counter n =>
    simp only [Access.perform, forgiven_count, h]
    exact ⟨trivial, trivial⟩
  | halt => exact ⟨rfl, congrArg (fun f => { f with running := false }) h⟩

-- ---------------------------------------------------------------------------
-- Twins
-- ---------------------------------------------------------------------------

namespace Routine

variable {α β γ δ : Type} {post : α → β → Prop}

/-- Routines that make the same accesses in the same order, but for silent ones, as long as
the answers are the same but for what sends tell. Their results are related. -/
inductive Twin (post : α → β → Prop) : Routine α → Routine β → Prop
  | done {x : α} {y : β} (h : post x y) : Twin post (.done x) (.done y)
  | access {a : Access} {next : a.Answer → Routine α} {next' : a.Answer → Routine β}
      (heard : ¬ Silent a)
      (h : ∀ answer answer', a.bare answer' = a.bare answer →
        Twin post (next answer) (next' answer')) :
      Twin post (.access a next) (.access a next')
  | left {a : Access} {next : a.Answer → Routine α} {r' : Routine β} (silent : Silent a)
      (h : ∀ answer, Twin post (next answer) r') : Twin post (.access a next) r'
  | right {r : Routine α} {a : Access} {next' : a.Answer → Routine β} (silent : Silent a)
      (h : ∀ answer, Twin post r (next' answer)) : Twin post r (.access a next')

theorem twin_pure {x : α} {y : β} (h : post x y) : Twin post (pure x) (pure y) := .done h

/-- The routine of an access that is heard is its own twin. -/
theorem twin_of {a : Access} (heard : ¬ Silent a) :
    Twin (fun answer answer' => a.bare answer' = a.bare answer) (of a) (of a) :=
  .access heard fun _ _ h => .done h

theorem Twin.bind {post' : γ → δ → Prop} {r : Routine α} {r' : Routine β}
    {rest : α → Routine γ} {rest' : β → Routine δ} (h : Twin post r r')
    (hrest : ∀ x y, post x y → Twin post' (rest x) (rest' y)) :
    Twin post' (r >>= rest) (r' >>= rest') := by
  induction h with
  | done hpost => exact hrest _ _ hpost
  | access heard _ ih => exact .access heard ih
  | left silent _ ih => exact .left silent ih
  | right silent _ ih => exact .right silent ih

theorem Twin.mono {weaker : α → β → Prop} {r : Routine α} {r' : Routine β} (h : Twin post r r')
    (himp : ∀ x y, post x y → weaker x y) : Twin weaker r r' := by
  induction h with
  | done hpost => exact .done (himp _ _ hpost)
  | access heard _ ih => exact .access heard ih
  | left silent _ ih => exact .left silent ih
  | right silent _ ih => exact .right silent ih

/-- Routines that make silent accesses only are twins of each other. -/
theorem Twin.of_silent {r : Routine α} {r' : Routine β} (h : r.All Silent) (h' : r'.All Silent) :
    Twin (fun _ _ => True) r r' := by
  induction r with
  | done x =>
    induction r' with
    | done y => exact .done trivial
    | access a next' ih => exact .right h'.1 fun answer => ih answer (h'.2 answer)
  | access a next ih => exact .left h.1 fun answer => ih answer (h.2 answer)

end Routine

open Routine (Twin twin_pure twin_of all_pure all_of)

theorem twin_halt : Twin Eq (Routine.of .halt) (Routine.of .halt) := by
  have heard : ¬ Silent .halt := id
  exact (twin_of heard).mono fun _ _ _ => rfl

/-- Counting something else than how sends end is heard. -/
theorem twin_count {counter : Counter} (h : counter.tells = false) (n : Nat) :
    Twin Eq (Routine.of (.count counter n)) (Routine.of (.count counter n)) := by
  have heard : ¬ Silent (.count counter n) := by
    intro hsilent
    exact Bool.false_ne_true (h.symm.trans hsilent)
  exact (twin_of heard).mono fun _ _ _ => rfl

theorem twin_touch (address : Address) (now : Nat) :
    Twin Eq (Routine.of (.touch address now)) (Routine.of (.touch address now)) := by
  have heard : ¬ Silent (.touch address now) := id
  exact (twin_of heard).mono fun _ _ _ => rfl

/-- Nothing is known of two results. -/
abbrev Whatever {α β : Type} (_ : α) (_ : β) : Prop := True

-- ---------------------------------------------------------------------------
-- Every routine is its own twin
-- ---------------------------------------------------------------------------

theorem silent_blame (peer : Option NodeId) : (blame peer).All Silent := by
  refine .bind (all_of rfl) fun _ => ?_
  cases peer with
  | none => exact all_pure _
  | some id => exact all_of trivial

theorem twin_transmit (frame : List UInt8) (target : Address) (peer peer' : Option NodeId) :
    Twin Whatever (transmit frame target peer) (transmit frame target peer') := by
  have hsilent : ∀ (peer : Option NodeId) (succeeded : Bool),
      (if succeeded then return true else do blame peer; return false : Routine Bool).All
        Silent := by
    intro peer succeeded
    cases succeeded with
    | true => exact all_pure _
    | false => exact .bind (silent_blame peer) fun _ => all_pure _
  exact .bind (twin_of id) fun _ _ _ => .of_silent (hsilent _ _) (hsilent _ _)

theorem twin_transmitAll (frame : List UInt8) (targets : List (Address × Option NodeId)) :
    Twin Whatever (transmitAll frame targets) (transmitAll frame targets) := by
  induction targets with
  | nil => exact twin_pure trivial
  | cons first rest ih =>
    obtain ⟨target, peer⟩ := first
    refine .bind (twin_transmit frame target peer peer) fun _ _ _ => ?_
    exact .bind ih fun _ _ _ => twin_pure trivial

theorem twin_transmitCounted {counter : Counter} (htells : counter.tells = true)
    (frame : List UInt8) (target : Address) (id : NodeId) :
    Twin Whatever (transmitCounted counter frame target id)
      (transmitCounted counter frame target id) := by
  have hsilent : ∀ succeeded : Bool,
      (if succeeded then Routine.of (.count counter 1) else return () : Routine Unit).All
        Silent := by
    intro succeeded
    cases succeeded with
    | true => exact all_of htells
    | false => exact all_pure _
  exact .bind (twin_transmit ..) fun _ _ _ => .of_silent (hsilent _) (hsilent _)

theorem targets_of_unblamed {neighbors neighbors' : List Neighbor}
    (h : neighbors'.map Neighbor.unblamed = neighbors.map Neighbor.unblamed) :
    targets neighbors' = targets neighbors := by
  have htargets := congrArg targets h
  rw [targets, targets, List.map_map, List.map_map] at htargets
  exact htargets

theorem twin_announce (s : Setup) : Twin Whatever (announce s) (announce s) := by
  refine .bind (twin_transmitAll _ _) fun broadcast broadcast' _ => ?_
  refine .bind (twin_of id) fun neighbors neighbors' hsame => ?_
  rw [targets_of_unblamed hsame]
  refine .bind (twin_transmitAll _ _) fun sent sent' _ => ?_
  have hcount : ∀ n m : Nat, (do Routine.of (.count .hellosSent n); return m : Routine Nat).All
      Silent := fun n m => .bind (all_of rfl) fun _ => all_pure _
  exact .of_silent (hcount _ _) (hcount _ _)

theorem twin_introduce (s : Setup) (address : Address) (id : NodeId) (now : Nat) :
    Twin Eq (introduce s address id now) (introduce s address id now) := by
  rw [introduce]
  split
  · exact twin_pure rfl
  · have heard : ¬ Silent (.upsert id address now) := fun silent => silent
    refine .bind (twin_of heard) fun outcome outcome' hsame => ?_
    cases (hsame : outcome' = outcome)
    cases outcome with
    | error error => exact twin_pure rfl
    | ok _ => exact .bind (twin_transmitCounted rfl ..) fun _ _ _ => twin_pure rfl

theorem twin_share (s : Setup) (rand : UInt64) (f : Formula) :
    Twin Eq (share s rand f) (share s rand f) := by
  have heard : ¬ Silent (.pick rand) := id
  refine .bind (twin_of heard) fun neighbor neighbor' hsame => ?_
  cases neighbor with
  | none =>
    cases neighbor' with
    | none => exact twin_pure rfl
    | some _ => cases hsame
  | some n =>
    cases neighbor' with
    | none => cases hsame
    | some n' =>
      have hunblamed : n'.unblamed = n.unblamed := Option.some.inj hsame
      have hid : n'.id = n.id := (congrArg Neighbor.id hunblamed :)
      have haddress : n'.address = n.address := (congrArg Neighbor.address hunblamed :)
      simp only [hid, haddress]
      exact .bind (twin_transmitCounted rfl ..) fun _ _ _ => twin_pure rfl

theorem twin_shareWithAll (s : Setup) (f : Formula) :
    Twin Whatever (shareWithAll s f) (shareWithAll s f) := by
  refine .bind (twin_of id) fun neighbors neighbors' hsame => ?_
  rw [targets_of_unblamed hsame]
  refine .bind (twin_transmitAll _ _) fun sent sent' _ => ?_
  refine .bind (twin_transmitAll _ _) fun broadcast broadcast' _ => ?_
  have hcount : ∀ n m : Nat, (do Routine.of (.count .formulasSent n); return m : Routine Nat).All
      Silent := fun n m => .bind (all_of rfl) fun _ => all_pure _
  exact .of_silent (hcount _ _) (hcount _ _)

theorem twin_routine (s : Setup) (c : Call) : Twin Eq (c.routine s) (c.routine s) := by
  cases c with
  | sendHello => exact .bind (twin_announce s) fun _ _ _ => twin_pure rfl
  | addStaticNeighbor address id now =>
    exact .bind (twin_introduce s address id now) fun _ _ _ => twin_pure rfl
  | sendToRandom rand f => exact .bind (twin_share s rand f) fun _ _ _ => twin_pure rfl
  | sendToAll f => exact .bind (twin_shareWithAll s f) fun _ _ _ => twin_pure rfl
  | nextEvent => exact .bind (twin_of id) fun _ _ _ => twin_pure rfl
  | drainEvents => exact .bind (twin_of id) fun _ _ _ => twin_pure rfl
  | stop => exact twin_halt

/-- A call begins alike in engines that are the same once they are forgiven. -/
theorem twin_begun {e e' : Engine} (h : e'.forgiven = e.forgiven) (c : Call) :
    Twin Eq (c.begun e) (c.begun e') := by
  have hsetup : e'.setup = e.setup := (congrArg Engine.setup h :)
  have hrunning : e'.running = e.running := (congrArg Engine.running h :)
  rw [Call.begun, Call.begun, hsetup, hrunning]
  split
  · exact twin_pure rfl
  · exact twin_routine e.setup c

/-- What is evicted is as much, so it is counted alike. -/
theorem twin_evictStale (s : Setup) (now : Nat) :
    Twin Eq (evictStale s now) (evictStale s now) := by
  refine .bind (twin_of id) fun gone gone' hsame => ?_
  have hmap : gone'.map Neighbor.unblamed = gone.map Neighbor.unblamed := hsame
  have hlength := congrArg List.length hmap
  rw [List.length_map, List.length_map] at hlength
  rw [hlength]
  exact twin_count rfl _

theorem twin_upkeep (s : Setup) (due : Bool) (now : Nat) :
    Twin Eq (upkeep s due now) (upkeep s due now) := by
  cases due with
  | true => exact .bind (twin_announce s) fun _ _ _ => twin_evictStale s now
  | false => exact twin_evictStale s now

theorem twin_observe (id : NodeId) (address : Address) (now : Nat) :
    Twin Eq (observe id address now) (observe id address now) := by
  have heard : ¬ Silent (.upsert id address now) := fun silent => silent
  refine .bind (twin_of heard) fun outcome outcome' hsame => ?_
  cases (hsame : outcome' = outcome)
  cases outcome with
  | error error => exact twin_pure rfl
  | ok outcome => cases outcome <;> exact twin_pure rfl

theorem twin_deliver (event : Event) : Twin Eq (deliver event) (deliver event) := by
  have heard : ¬ Silent (.push event) := id
  refine .bind (twin_of heard) fun accepted accepted' hsame => ?_
  cases (hsame : accepted' = accepted)
  cases accepted with
  | true => exact twin_pure rfl
  | false => exact .bind (twin_count rfl 1) fun _ _ _ => twin_pure rfl

theorem twin_react (s : Setup) (origin : Address) (now : Nat) (m : Message) :
    Twin Eq (react s origin now m) (react s origin now m) := by
  cases m with
  | hello id =>
    have hdeliver : Twin Eq (do let _ ← deliver (.hello id origin) : Routine Unit)
        (do let _ ← deliver (.hello id origin)) :=
      .bind (twin_deliver _) fun _ _ _ => twin_pure rfl
    refine .bind (twin_observe id origin now) fun isNew _ hsame => ?_
    cases hsame
    cases isNew with
    | true => exact .bind (twin_transmitCounted rfl ..) fun _ _ _ => hdeliver
    | false => exact hdeliver
  | migrate id gene fitness =>
    refine .bind (twin_observe id origin now) fun _ _ _ => ?_
    refine .bind (twin_deliver _) fun accepted _ hsame => ?_
    cases hsame
    exact (twin_transmitCounted rfl ..).mono fun _ _ _ => rfl
  | ack status => exact .bind (twin_count rfl 1) fun _ _ _ => twin_touch origin now

theorem twin_handle (s : Setup) (datagram : List UInt8) (origin : Address) (now : Nat) :
    Twin Eq (handle s datagram origin now) (handle s datagram origin now) := by
  refine .bind (twin_count rfl 1) fun _ _ _ => ?_
  cases Frame.decode s.hash (datagram.take receiveLimit) with
  | error _ => exact twin_count rfl 1
  | ok m =>
    by_cases hown : m.sender? = some s.nodeId
    · simp only [if_pos hown]
      exact twin_pure rfl
    · simp only [if_neg hown]
      exact twin_react s origin now m

-- ---------------------------------------------------------------------------
-- Twins that nobody interrupts
-- ---------------------------------------------------------------------------

/-- Twins leave engines that are the same once they are forgiven, however their sends end. -/
theorem Routine.Twin.run {α β : Type} {post : α → β → Prop} {r : Routine α} {r' : Routine β}
    (h : Twin post r r') {e e' : Engine} (hforgiven : e'.forgiven = e.forgiven)
    (socket socket' : Socket) :
    post (r.run socket e).1 (r'.run socket' e').1 ∧
      (r'.run socket' e').2.forgiven = (r.run socket e).2.forgiven := by
  induction h generalizing e e' with
  | done hpost => exact ⟨hpost, hforgiven⟩
  | @access a next next' heard _ ih =>
    obtain ⟨hanswer, hleft⟩ := perform_forgiven hforgiven socket socket' a
    exact ih _ _ hanswer hleft
  | left silent _ ih => exact ih _ (hforgiven.trans (silent.forgiven_eq socket e).symm)
  | right silent _ ih => exact ih _ ((silent.forgiven_eq socket' e').trans hforgiven)

end Engine

end AffineSwarm
