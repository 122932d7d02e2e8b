import AffineSwarm.Proofs.Engine.Refusal
import AffineSwarm.Proofs.Engine.Delivery

/-!
# After the stop

Once a call to stop has returned, the network loop has ended with nothing in hand
(`EndsStopped.run`). What is left of the engine is its queue, and the application may take
events from it or stop the engine once more (`Access.IsLate`). So every later step leaves
everything but the queue as it is, and the queue only loses what is taken (`Retired.run`).

For calls made one after the other this says what each gives back (`Call.lateReply`): a stopped
engine is the list of the events that were queued.

## Results

* `Retired.run` — what stays as it is after the stop, whatever the threads do.
* `make_late`, `turns_late` — what a stopped engine gives back, to one call and to many.
* `failing_and_late_calls_leave_no_trace` — calls that fail, and calls after the stop.
-/

namespace AffineSwarm.Engine

variable {m m' m₀ : Machine} {label : Label} {labels more : List Label}

-- ---------------------------------------------------------------------------
-- The network loop has ended
-- ---------------------------------------------------------------------------

/-- A stopped engine is not started again. -/
theorem running_perform (socket : Socket) {e : Engine} (a : Access)
    (hstopped : e.running = false) : (a.perform socket e).2.running = false := by
  by_cases hhalt : a = .halt
  · rw [hhalt, Access.perform]
  · exact (running_perform_eq socket e hhalt).trans hstopped

/-- The network loop ends only when the engine is stopped, and has nothing in hand then. -/
def Machine.EndsStopped (m : Machine) : Prop :=
  m.stage = .ended → m.engine.running = false ∧ m.network = .done ()

namespace Machine.EndsStopped

theorem starting (e : Engine) : (Machine.starting e).EndsStopped := nofun

theorem step (h : m.EndsStopped) (hstep : Step m label m') : m'.EndsStopped := by
  intro hended
  cases hstep with
  | housekeeping due now stage running idle => cases hended
  | receive datagram origin now stage idle => cases hended
  | lapse stage idle => cases hended
  | finish stage stopped idle => exact ⟨stopped, idle⟩
  | call c => exact h hended
  | leave calls join => exact h hended
  | network socket work =>
    have hidle := (h hended).2
    rw [work] at hidle
    cases hidle
  | application socket calls => exact ⟨running_perform socket _ (h hended).1, (h hended).2⟩

theorem run {start : Machine} (h : start.EndsStopped) (hrun : Run start labels m) :
    m.EndsStopped := by
  induction hrun with
  | nil => exact h
  | snoc _ hstep ih => exact ih.step hstep

end Machine.EndsStopped

-- ---------------------------------------------------------------------------
-- What may still happen
-- ---------------------------------------------------------------------------

/-- The accesses that calls make to a stopped engine. -/
def Access.IsLate : Access → Prop
  | .pop | .drain | .halt => True
  | _ => False

/-- What happens to a stopped engine: it is called, and it gives its events away. -/
def Label.IsLate : Label → Prop
  | .called _ | .returned _ => True
  | .performed (.application _) ⟨a, _⟩ => a.IsLate
  | _ => False

/-- A call to a stopped engine makes late accesses only. -/
theorem isLate_begun {e : Engine} (hstopped : e.running = false) (c : Call) :
    (c.begun e).All Access.IsLate := by
  rw [Call.begun, hstopped, Bool.not_false, Bool.and_true]
  cases c with
  | nextEvent => exact (all_routine e.setup .nextEvent).mono fun _ h => h ▸ trivial
  | drainEvents => exact (all_routine e.setup .drainEvents).mono fun _ h => h ▸ trivial
  | stop => exact (all_routine e.setup .stop).mono fun _ h => h ▸ trivial
  | _ => trivial

theorem Access.IsLate.accepted_eq {a : Access} (h : a.IsLate) (thread : Thread)
    (answer : a.Answer) : accepted [.performed thread ⟨a, answer⟩] = [] := by
  cases a with
  | push event => exact h.elim
  | _ => rfl

-- ---------------------------------------------------------------------------
-- What is left of the engine
-- ---------------------------------------------------------------------------

/-- An engine that is another one but for its queue, in which these events wait. -/
structure DiffersInQueue (e₀ : Engine) (waiting : List Event) (e : Engine) : Prop where
  engine_eq : e = { e₀ with events := e.events }
  rejected_eq : e.events.rejected = e₀.events.rejected
  queue : e.events.Represents waiting

namespace DiffersInQueue

variable {e₀ e : Engine} {waiting left : List Event} {queue : EventQueue}

theorem refl (h : e.events.Represents waiting) : DiffersInQueue e waiting e := ⟨rfl, rfl, h⟩

theorem running_eq (h : DiffersInQueue e₀ waiting e) : e.running = e₀.running := by
  rw [h.engine_eq]

/-- The queue may change once more, as long as it refuses nothing. -/
theorem set (h : DiffersInQueue e₀ waiting e) (hrejected : queue.rejected = e.events.rejected)
    (hqueue : queue.Represents left) : DiffersInQueue e₀ left { e with events := queue } where
  engine_eq := by rw [h.engine_eq]
  rejected_eq := hrejected.trans h.rejected_eq
  queue := hqueue

/-- A late access takes events from a stopped engine, and does nothing else. -/
theorem perform (h : DiffersInQueue e₀ waiting e) (hstopped : e.running = false) {a : Access}
    (ha : a.IsLate) (socket : Socket) (thread : Thread) :
    ∃ left, DiffersInQueue e₀ left (a.perform socket e).2 ∧
      waiting = taken [.performed thread ⟨a, (a.perform socket e).1⟩] ++ left := by
  obtain ⟨left, hleft, hlaw⟩ := perform_events socket e a thread h.queue
  rw [ha.accepted_eq, List.append_nil] at hlaw
  refine ⟨left, ?_, hlaw⟩
  cases a with
  | pop => exact h.set (Ring.rejected_pop _) hleft
  | drain => exact h.set (Ring.rejected_popMany _ _) hleft
  | halt =>
    have hsame : (Access.halt.perform socket e).2 = e := by rw [Access.perform, ← hstopped]
    rw [hsame] at hleft ⊢
    exact h.set rfl hleft
  | _ => exact ha.elim

end DiffersInQueue

-- ---------------------------------------------------------------------------
-- Whatever the threads do
-- ---------------------------------------------------------------------------

/-- The network loop has ended, and the calls in progress only take events. -/
structure Machine.Stopped (m : Machine) : Prop where
  ended : m.stage = .ended
  stopped : m.engine.running = false
  idle : m.network = .done ()
  calls : ∀ c ∈ m.calls, c.rest.All Access.IsLate

/-- A stop that has returned has stopped the engine, if no other call is in progress. -/
theorem stopped_of_returned (h : m.EndsStopped) (hstep : Step m (.returned .stop) m₀)
    (hcalls : m₀.calls = []) : m₀.Stopped := by
  cases hstep with
  | leave calls join =>
    obtain ⟨hstopped, hidle⟩ := h (join rfl)
    exact ⟨join rfl, hstopped, hidle, hcalls ▸ List.forall_mem_nil _⟩

/-- After these steps, a stopped engine has given events away and is otherwise unchanged. -/
structure Retired (m₀ : Machine) (more : List Label) (m : Machine) : Prop where
  stopped : m.Stopped
  late : ∀ label ∈ more, label.IsLate
  engine : ∃ left, DiffersInQueue m₀.engine left m.engine ∧
    taken more ++ left = m₀.engine.events.toList

theorem Retired.refl (hstopped : m.Stopped) {waiting : List Event}
    (h : m.engine.events.Represents waiting) : Retired m [] m :=
  ⟨hstopped, List.forall_mem_nil _, waiting, .refl h, h.toList_eq.symm⟩

/-- Every step after the stop is late, and takes nothing but events. -/
theorem Retired.step (h : Retired m₀ more m) (hstep : Step m label m') :
    Retired m₀ (more ++ [label]) m' := by
  have hlate : label.IsLate → ∀ l ∈ more ++ [label], l.IsLate := fun hlabel =>
    List.forall_mem_append.mpr ⟨h.late, List.forall_mem_singleton.mpr hlabel⟩
  have hengine : taken [label] = [] → ∃ left, DiffersInQueue m₀.engine left m.engine ∧
      taken (more ++ [label]) ++ left = m₀.engine.events.toList := by
    intro hnone
    rw [taken_append, hnone, List.append_nil]
    exact h.engine
  obtain ⟨hended, hstopped, hidle, hcalls⟩ := h.stopped
  cases hstep with
  | housekeeping due now stage running idle => cases hended.symm.trans stage
  | receive datagram origin now stage idle => cases hended.symm.trans stage
  | lapse stage idle => cases hended.symm.trans stage
  | finish stage stopped idle => cases hended.symm.trans stage
  | call c =>
    refine ⟨⟨hended, hstopped, hidle, ?_⟩, hlate trivial, hengine rfl⟩
    exact List.forall_mem_append.mpr
      ⟨hcalls, List.forall_mem_singleton.mpr (isLate_begun hstopped c)⟩
  | leave hpending join =>
    exact ⟨⟨hended, hstopped, hidle, forall_mem_remove (hpending ▸ hcalls)⟩, hlate trivial,
      hengine rfl⟩
  | network socket work => cases hidle.symm.trans work
  | @application before after c a next socket hpending =>
    have hall := hcalls _ (hpending ▸ List.mem_append_cons_self)
    obtain ⟨waiting, hdiffers, htaken⟩ := h.engine
    obtain ⟨left, hleft, hlaw⟩ := hdiffers.perform hstopped hall.1 socket (.application c)
    refine ⟨⟨hended, running_perform socket a hstopped, hidle, ?_⟩, hlate hall.1, left, hleft, ?_⟩
    · exact forall_mem_replace (hpending ▸ hcalls) (hall.2 _)
    · rw [taken_append, List.append_assoc, ← hlaw, htaken]

/-- By induction on the steps after the stop. -/
theorem Retired.run (h : Retired m₀ [] m₀) (hrun : Run m₀ more m) : Retired m₀ more m := by
  induction hrun with
  | nil => exact h
  | snoc _ hstep ih => exact ih.step hstep

-- ---------------------------------------------------------------------------
-- Calls one after the other
-- ---------------------------------------------------------------------------

/-- What a stopped engine gives back when these events wait, and those that wait then. -/
def Call.lateReply (waiting : List Event) : Call → Except SwarmError Reply × List Event
  | .nextEvent => (.ok (.next waiting.head?), waiting.tail)
  | .drainEvents => (.ok (.drained waiting), [])
  | .stop => (.ok .stopped, waiting)
  | .sendHello | .addStaticNeighbor _ _ _ | .sendToRandom _ _ | .sendToAll _ =>
    (.error .notRunning, waiting)

/-- What a stopped engine gives back to calls, one after the other. -/
def lateReplies (waiting : List Event) : List Call → List (Except SwarmError Reply) × List Event
  | [] => ([], waiting)
  | c :: rest =>
    let later := lateReplies (c.lateReply waiting).2 rest
    ((c.lateReply waiting).1 :: later.1, later.2)

/-- The events that a call gives back. -/
def eventsOf : Except SwarmError Reply → List Event
  | .ok (.next event) => event.toList
  | .ok (.drained events) => events
  | _ => []

/-- The events that calls give back, with those that wait then, are those that waited. -/
theorem eventsOf_lateReplies (waiting : List Event) (calls : List Call) :
    (lateReplies waiting calls).1.flatMap eventsOf ++ (lateReplies waiting calls).2 = waiting := by
  induction calls generalizing waiting with
  | nil => rfl
  | cons c rest ih =>
    have hreply : eventsOf (c.lateReply waiting).1 ++ (c.lateReply waiting).2 = waiting := by
      cases c with
      | nextEvent => cases waiting <;> rfl
      | drainEvents => exact List.append_nil _
      | _ => rfl
    rw [lateReplies, List.flatMap_cons, List.append_assoc, ih, hreply]

/-- A call to a stopped engine. -/
theorem make_late {e₀ e : Engine} {waiting : List Event} (h : DiffersInQueue e₀ waiting e)
    (hstopped : e.running = false) (socket : Socket) (c : Call) :
    (c.make socket e).1 = (c.lateReply waiting).1 ∧
      DiffersInQueue e₀ (c.lateReply waiting).2 (c.make socket e).2 := by
  have hrefused : c.sends = true → c.make socket e = (.error .notRunning, e) :=
    make_of_stopped socket hstopped
  cases c with
  | nextEvent =>
    cases waiting with
    | nil =>
      rw [Call.make, nextEvent, h.queue.pop_nil]
      exact ⟨rfl, h⟩
    | cons event left =>
      obtain ⟨hpopped, hleft⟩ := h.queue.pop
      exact ⟨congrArg (fun event => Except.ok (Reply.next event)) hpopped,
        h.set (Ring.rejected_pop _) hleft⟩
  | drainEvents =>
    obtain ⟨hdrained, hleft⟩ := h.queue.drain
    exact ⟨congrArg (fun events => Except.ok (Reply.drained events)) hdrained,
      h.set (Ring.rejected_popMany _ _) hleft⟩
  | stop =>
    have hsame : e.stop = e := by rw [stop, ← hstopped]
    rw [Call.make, hsame]
    exact ⟨rfl, h⟩
  | _ =>
    rw [hrefused rfl]
    exact ⟨rfl, h⟩

/-- Calls to a stopped engine, by induction on them. -/
theorem turns_late {p : Progress} {e₀ : Engine} {waiting : List Event}
    (h : DiffersInQueue e₀ waiting p.engine) (hstopped : e₀.running = false) (socket : Socket)
    (calls : List Call) :
    (p.turns socket (calls.map .call)).replies = p.replies ++ (lateReplies waiting calls).1 ∧
      DiffersInQueue e₀ (lateReplies waiting calls).2
        (p.turns socket (calls.map .call)).engine := by
  induction calls generalizing p waiting with
  | nil => exact ⟨(List.append_nil _).symm, h⟩
  | cons c rest ih =>
    obtain ⟨hreply, hengine⟩ := make_late h (h.running_eq.trans hstopped) socket c
    have hnext : DiffersInQueue e₀ (c.lateReply waiting).2 (p.turn socket (.call c)).engine :=
      hengine
    obtain ⟨hreplies, hleft⟩ := ih hnext
    refine ⟨?_, hleft⟩
    calc ((p.turn socket (.call c)).turns socket (rest.map .call)).replies
        = p.replies ++ [(c.make socket p.engine).1] ++
          (lateReplies (c.lateReply waiting).2 rest).1 := hreplies
      _ = p.replies ++ (lateReplies waiting (c :: rest)).1 := by
        rw [hreply, List.append_assoc]
        rfl

-- ---------------------------------------------------------------------------
-- Calls that fail, and calls after the stop
-- ---------------------------------------------------------------------------

/-- **Calls that fail and calls that come late leave no trace.** In every state that an engine
reaches, running or stopped:

* a call gives an error in three cases only: it sends and the engine is stopped, it adds the
  engine's own identity, or it adds a new node to a full table (`Call.Fails`); and then the
  engine is as it was, with its table, queue, counters and sends;
* if other threads act between the accesses of a call that ends in an error, all that the call
  did was to be turned away by the full table, which changes nothing.

After a call to stop has returned, while no other call was in progress, and whatever calls the
threads of the application make from then on:

* nothing is sent or received and no housekeeping is done; calls that send are refused, and
  the others come and go and take events;
* the engine stays as it is but for its queue; the events that were taken, followed by those
  that wait, are those that were queued when the stop returned, in that order;
* calls one after the other give what `lateReplies` says: those that send are refused, and each
  event is given back once and in order, to whoever asks for the next one or for all. -/
theorem failing_and_late_calls_leave_no_trace (config : EngineConfig) (opening : Opening)
    (e : Engine) (labels : List Label) (m : Machine) (started : start config opening = .ok e)
    (run : Run (.starting e) labels m) :
    (∀ socket (c : Call) error,
      ((c.make socket m.engine).1 = .error error ↔ c.Fails m.engine error) ∧
      ((c.make socket m.engine).1 = .error error → (c.make socket m.engine).2 = m.engine)) ∧
    (∀ (c : Call) made error, (c.begunReply m.engine).Trace made (.done (.error error)) →
      ∀ p ∈ made, p.TurnedAway) ∧
    (∀ thread (p : Performed) m', Step m (.performed thread p) m' → p.TurnedAway →
      m'.engine = m.engine) ∧
    ∀ m₀ more m', Step m (.returned .stop) m₀ → m₀.calls = [] → Run m₀ more m' →
      (∀ label ∈ more, label.IsLate) ∧
      DiffersInQueue m₀.engine m'.engine.events.toList m'.engine ∧
      taken more ++ m'.engine.events.toList = m₀.engine.events.toList ∧
      (∀ c : Call, c.sends = true → c.begunReply m'.engine = .done (.error .notRunning)) ∧
      ∀ socket (p : Progress) calls, p.engine = m'.engine →
        let p' := p.turns socket (calls.map .call)
        let late := lateReplies m'.engine.events.toList calls
        p'.replies = p.replies ++ late.1 ∧ DiffersInQueue m'.engine late.2 p'.engine ∧
          late.1.flatMap eventsOf ++ late.2 = m'.engine.events.toList := by
  refine ⟨fun socket c error => ⟨⟨fails_of_make, make_of_fails socket⟩, make_unchanged⟩,
    fun c made error htrace => (failsCleanly_begunReply m.engine c).trace htrace rfl, ?_, ?_⟩
  · intro thread p m' hstep haway
    rcases hstep.engine_cases with ⟨hengine, -⟩ | ⟨_, a, socket, hlabel, hengine⟩
    · exact hengine
    · cases hlabel
      rw [hengine, haway.perform_eq]
  · intro m₀ more m' hstop hcalls hmore
    have hfaithful : Faithful e.setup labels m := (Faithful.starting started).run run
    obtain ⟨waiting, hwaiting, -⟩ := (hfaithful.step hstop).queue
    have hends : m.EndsStopped := (Machine.EndsStopped.starting e).run run
    have hretired : Retired m₀ more m' :=
      (Retired.refl (stopped_of_returned hends hstop hcalls) hwaiting).run hmore
    obtain ⟨left, hdiffers, htaken⟩ := hretired.engine
    rw [hdiffers.queue.toList_eq]
    refine ⟨hretired.late, hdiffers, htaken, fun c hsends => ?_, fun socket p calls hengine => ?_⟩
    · rw [Call.begunReply, hsends, hretired.stopped.stopped]
      rfl
    have hsame : DiffersInQueue m'.engine left p.engine := hengine.symm ▸ .refl hdiffers.queue
    obtain ⟨hreplies, hkept⟩ := turns_late hsame hretired.stopped.stopped socket calls
    exact ⟨hreplies, hkept, eventsOf_lateReplies left calls⟩

/-- Node 1 has queued a formula when it is stopped, and gives it back after that. -/
theorem failing_and_late_calls_leave_no_trace_of_formula :
    let e := fresh (.standard 1 0 ⟨[]⟩) (.anyHost 7)
    let event : Event := .formula 2 (.anyHost 9) ⟨.empty, .one, .zero⟩
    start (.standard 1 0 ⟨[]⟩) ⟨.ok (), .ok (), .ok (), .ok (.anyHost 7), .ok ()⟩ = .ok e ∧
    ∃ labels m m₀, Run (.starting e) labels m ∧ Step m (.returned .stop) m₀ ∧ m₀.calls = [] ∧
      ∀ socket, ((⟨.starting 0, m₀.engine, []⟩ : Progress).turns socket
        [.call .sendHello, .call .nextEvent, .call .nextEvent]).replies =
          [.error .notRunning, .ok (.next (some event)), .ok (.next none)] := by
  intro e event
  have started : start (.standard 1 0 ⟨[]⟩)
      ⟨.ok (), .ok (), .ok (), .ok (.anyHost 7), .ok ()⟩ = .ok e := rfl
  let formula : Formula := ⟨.empty, .one, .zero⟩
  have hvalid : (Message.migration 2 formula).IsValid := show Binary64.Within _ _ _ by decide
  have hdecode : Frame.decode e.setup.hash (e.setup.encode (.migration 2 formula)) =
      .ok (.migration 2 formula) := Frame.decode_encode _ hvalid
  have hforeign : (Message.migration 2 formula).sender? ≠ some e.setup.nodeId := by decide
  let socket : Socket := fun _ _ => true
  -- The engine is written out where the network loop has nothing in hand.
  let datagram := e.setup.encode (.migration 2 formula)
  let queued : Engine :=
    { e with
      neighbors := ⟨e.neighbors.capacity, [⟨2, .anyHost 9, 0, 0⟩]⟩
      events := (e.events.push event).2
      stats := ⟨1, 0, 0, 0, 1, 0, 0, 0, 0⟩
      attempts := 1
      outbox := [⟨.anyHost 9, e.setup.encode (.ack Message.accepted), true⟩] }
  have h1 : Run (.starting e) _ _ := .snoc .nil (.housekeeping false 0 rfl rfl rfl)
  have h2 := (h1.snoc (.network socket rfl)).snoc (.network socket rfl)
  have hwaiting : Run (.starting e) _ ⟨e, .waiting, .done (), []⟩ := h2
  have h3 := hwaiting.snoc (.receive datagram (.anyHost 9) 0 rfl rfl)
  have h4 := h3.snoc (.network socket (handle_of_decode hdecode hforeign (.anyHost 9) 0))
  have h5 := (h4.snoc (.network socket rfl)).snoc (.network socket rfl)
  have h6 := (h5.snoc (.network socket rfl)).snoc (.network socket rfl)
  have hqueued : Run (.starting e) _ ⟨queued, .looking, .done (), []⟩ := h6
  have h7 := (hqueued.snoc (.call .stop)).snoc (@Step.application _ [] [] _ _ _ socket rfl)
  have h8 := h7.snoc (.finish rfl rfl rfl)
  refine ⟨started, _, _, _, h8, @Step.leave _ [] [] .stop rfl fun _ => rfl, rfl, fun socket => ?_⟩
  have hlate := (failing_and_late_calls_leave_no_trace _ _ e _ _ started h8).2.2.2 _ [] _
    (@Step.leave _ [] [] .stop rfl fun _ => rfl) rfl .nil
  exact (hlate.2.2.2.2 socket ⟨.starting 0, _, []⟩ [.sendHello, .nextEvent, .nextEvent] rfl).1

end AffineSwarm.Engine
