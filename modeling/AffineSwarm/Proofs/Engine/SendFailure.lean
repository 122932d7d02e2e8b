import AffineSwarm.Proofs.Engine.Twins
import Mathlib.Data.List.Forall2

/-!
# Failed sends

How sends end has no influence on anything but what is told of it. If nothing interrupts a
turn, then the same turns with another socket leave an engine that is akin, and all replies are
the same but for how many frames left (`turns_forgiven`).

If the threads interrupt each other, then a thread whose send failed makes accesses that it
would not make else, and the other thread may have changed the table before it blames anybody.
Still any sends may end in another way: a run with other outcomes goes along with the one that
there is, each of its threads a twin of the other's (`Twins`). It catches up with what is
silent before the next access that is heard (`Twins.step`).

## Results

* `turns_forgiven` — turns with another socket.
* `Twins.step` — a step, with any outcome of a send.
* `Run.twins` — a run, with any outcomes of its sends.
* `send_failures_are_contained` — all of it.
-/

namespace AffineSwarm

namespace Engine

open Routine (Twin)

-- ---------------------------------------------------------------------------
-- Turns
-- ---------------------------------------------------------------------------

/-- The reply, but for how many frames left. -/
def Reply.bare : Reply → Reply
  | .sent _ => .sent 0
  | reply => reply

/-- A call that is refused, or else a routine that is its own twin. -/
theorem answered_forgiven {α : Type} {post : α → α → Prop} {r : Routine α} {reply : α → Reply}
    (h : Twin post r r) (hreply : ∀ x y, post x y → (reply y).bare = (reply x).bare)
    {e e' : Engine} (hforgiven : e'.forgiven = e.forgiven) (socket socket' : Socket) :
    (e'.answered reply (e'.whileRunning (.ok (r.run socket' e')))).1.map Reply.bare =
        (e.answered reply (e.whileRunning (.ok (r.run socket e)))).1.map Reply.bare ∧
      (e'.answered reply (e'.whileRunning (.ok (r.run socket' e')))).2.forgiven =
        (e.answered reply (e.whileRunning (.ok (r.run socket e)))).2.forgiven := by
  have hrunning : e'.running = e.running := (congrArg Engine.running hforgiven :)
  obtain ⟨hpost, hleft⟩ := h.run hforgiven socket socket'
  rw [whileRunning, whileRunning, hrunning]
  split
  · exact ⟨congrArg Except.ok (hreply _ _ hpost), hleft⟩
  · exact ⟨rfl, hforgiven⟩

theorem make_forgiven {e e' : Engine} (h : e'.forgiven = e.forgiven) (socket socket' : Socket)
    (c : Call) :
    (c.make socket' e').1.map Reply.bare = (c.make socket e).1.map Reply.bare ∧
      (c.make socket' e').2.forgiven = (c.make socket e).2.forgiven := by
  have hsetup : e'.setup = e.setup := (congrArg Engine.setup h :)
  cases c with
  | sendHello =>
    simp only [Call.make, sendHello, hsetup]
    exact answered_forgiven (twin_announce e.setup) (fun _ _ _ => rfl) h socket socket'
  | addStaticNeighbor address id now =>
    have hrunning : e'.running = e.running := (congrArg Engine.running h :)
    obtain ⟨hsame, hleft⟩ := (twin_introduce e.setup address id now).run h socket socket'
    simp only [Call.make, addStaticNeighbor, whileRunning, hsetup, hrunning]
    split
    · generalize (introduce e.setup address id now).run socket e = done at hsame hleft
      generalize (introduce e.setup address id now).run socket' e' = done' at hsame hleft
      obtain ⟨result, left⟩ := done
      obtain ⟨result', left'⟩ := done'
      cases (hsame : result = result')
      cases result with
      | error error => exact ⟨rfl, h⟩
      | ok _ => exact ⟨rfl, hleft⟩
    · exact ⟨rfl, h⟩
  | sendToRandom rand f =>
    simp only [Call.make, sendToRandom, hsetup]
    exact answered_forgiven (twin_share e.setup rand f) (fun _ _ hsame => hsame ▸ rfl) h socket
      socket'
  | sendToAll f =>
    simp only [Call.make, sendToAll, hsetup]
    exact answered_forgiven (twin_shareWithAll e.setup f) (fun _ _ _ => rfl) h socket socket'
  | nextEvent =>
    have hevents : e'.events = e.events := (congrArg Engine.events h :)
    refine ⟨?_, congrArg (fun f => { f with events := f.events.pop.2 }) h⟩
    simp only [Call.make, answered, nextEvent, hevents]
  | drainEvents =>
    have hevents : e'.events = e.events := (congrArg Engine.events h :)
    refine ⟨?_, congrArg (fun f => { f with events := f.events.drain.2 }) h⟩
    simp only [Call.make, answered, drainEvents, hevents]
  | stop => exact ⟨rfl, congrArg stop h⟩

namespace Progress

/-- How far an engine has come, but for what its sends have told. -/
def forgiven (p : Progress) : Progress :=
  ⟨p.schedule, p.engine.forgiven, p.replies.map (Except.map Reply.bare)⟩

theorem turn_forgiven {p p' : Progress} (h : p'.forgiven = p.forgiven) (socket socket' : Socket)
    (t : Turn) : (p'.turn socket' t).forgiven = (p.turn socket t).forgiven := by
  have hengine : p'.engine.forgiven = p.engine.forgiven := congrArg Progress.engine h
  have hsetup : p'.engine.setup = p.engine.setup := (congrArg Engine.setup hengine :)
  have hschedule : p'.schedule = p.schedule := (congrArg Progress.schedule h :)
  have hreplies : p'.replies.map (Except.map Reply.bare) =
      p.replies.map (Except.map Reply.bare) := congrArg Progress.replies h
  cases t with
  | datagram bytes origin now =>
    obtain ⟨-, hleft⟩ := (twin_handle p.engine.setup bytes origin now).run hengine socket socket'
    rw [turn, turn, handleDatagram, handleDatagram, hsetup]
    simp only [forgiven, hschedule, hleft, hreplies]
  | pass now =>
    obtain ⟨-, hleft⟩ := (twin_upkeep p.engine.setup (p.schedule.nextHello ≤ now) now).run
      hengine socket socket'
    simp only [turn, housekeeping, forgiven, setup_run, hsetup, hschedule, hleft, hreplies]
  | call c =>
    obtain ⟨hreply, hleft⟩ := make_forgiven hengine socket socket' c
    simp only [turn, forgiven, hschedule, hleft, List.map_append, hreplies, List.map_cons,
      List.map_nil, hreply]

theorem turns_forgiven {p p' : Progress} (h : p'.forgiven = p.forgiven)
    (socket socket' : Socket) (turns : List Turn) :
    (p'.turns socket' turns).forgiven = (p.turns socket turns).forgiven := by
  induction turns generalizing p p' with
  | nil => exact h
  | cons t rest ih => exact ih (turn_forgiven h socket socket' t)

end Progress

-- ---------------------------------------------------------------------------
-- What is heard of a run
-- ---------------------------------------------------------------------------

instance : DecidablePred Silent
  | .recordFailure _ => isTrue trivial
  | .count counter _ => inferInstanceAs (Decidable (counter.tells = true))
  | .send _ _ | .upsert _ _ _ | .touch _ _ | .evict _ _ | .snapshot | .pick _ | .push _ | .pop
  | .drain | .halt => isFalse id

/-- A step as it shows to whom nobody tells how sends end. -/
def Label.heard? : Label → Option Label
  | .performed thread ⟨a, answer⟩ =>
    if Silent a then none else some (.performed thread ⟨a, a.bare answer⟩)
  | label => some label

/-- How the send of a step ended, if there was one. -/
def Label.outcome? : Label → Option Bool
  | .performed _ ⟨.send _ _, succeeded⟩ => some succeeded
  | _ => none

def heard (labels : List Label) : List Label := labels.filterMap Label.heard?

def outcomes (labels : List Label) : List Bool := labels.filterMap Label.outcome?

theorem heard_append (labels more : List Label) :
    heard (labels ++ more) = heard labels ++ heard more := List.filterMap_append

theorem outcomes_append (labels more : List Label) :
    outcomes (labels ++ more) = outcomes labels ++ outcomes more := List.filterMap_append

/-- Nothing is heard of a silent access, and it is no send. -/
theorem Silent.heard_eq {a : Access} (h : Silent a) (thread : Thread) (answer : a.Answer) :
    heard [.performed thread ⟨a, answer⟩] = [] ∧
      (Label.performed thread ⟨a, answer⟩).outcome? = none := by
  refine ⟨List.filterMap_cons_none ?_, ?_⟩
  · simp only [Label.heard?, if_pos h]
  · cases a <;> first | rfl | exact h.elim

/-- Of two answers that are the same but for what sends tell, the same is heard. -/
theorem heard_performed {a : Access} {answer answer' : a.Answer}
    (h : a.bare answer' = a.bare answer) (thread : Thread) :
    heard [.performed thread ⟨a, answer'⟩] = heard [.performed thread ⟨a, answer⟩] := by
  simp only [heard, List.filterMap_cons, Label.heard?, h]

-- ---------------------------------------------------------------------------
-- Catching up
-- ---------------------------------------------------------------------------

namespace Routine

variable {α β : Type} {post : α → β → Prop}

/-- A routine gets to another one by silent accesses. -/
inductive Quietly : Routine α → Routine α → Prop
  | refl (r : Routine α) : Quietly r r
  | access {a : Access} {next : a.Answer → Routine α} {r' : Routine α} (silent : Silent a)
      (answer : a.Answer) (rest : Quietly (next answer) r') : Quietly (.access a next) r'

/-- The twin of a routine that is done has at most silent accesses left. -/
theorem Twin.of_done {x : α} {r' : Routine β} (h : Twin post (.done x) r') :
    ∃ y, Quietly r' (.done y) ∧ post x y := by
  generalize hr : Routine.done x = r at h
  induction h with
  | done hpost =>
    cases hr
    exact ⟨_, .refl _, hpost⟩
  | access heard _ ih => cases hr
  | left silent _ ih => cases hr
  | right silent _ ih =>
    obtain ⟨answer⟩ := silent.nonempty
    obtain ⟨y, hquiet, hpost⟩ := ih answer hr
    exact ⟨y, .access silent answer hquiet, hpost⟩

/-- The twin of a routine that makes an access that is heard makes the same one, after silent
accesses. -/
theorem Twin.of_access {a : Access} {next : a.Answer → Routine α} {r' : Routine β}
    (h : Twin post (.access a next) r') (heard : ¬ Silent a) :
    ∃ next', Quietly r' (.access a next') ∧
      ∀ answer answer', a.bare answer' = a.bare answer →
        Twin post (next answer) (next' answer') := by
  generalize hr : Routine.access a next = r at h
  induction h with
  | done hpost => cases hr
  | access _ h _ =>
    cases hr
    exact ⟨_, .refl _, h⟩
  | left silent _ ih =>
    cases hr
    exact absurd silent heard
  | right silent _ ih =>
    obtain ⟨answer⟩ := silent.nonempty
    obtain ⟨next', hquiet, hnext⟩ := ih answer hr
    exact ⟨next', .access silent answer hquiet, hnext⟩

/-- A silent access leaves a twin. -/
theorem Twin.of_silent_access {a : Access} {next : a.Answer → Routine α} {r' : Routine β}
    (h : Twin post (.access a next) r') (silent : Silent a) (answer : a.Answer) :
    Twin post (next answer) r' := by
  generalize hr : Routine.access a next = r at h
  induction h with
  | done hpost => cases hr
  | access heard _ _ =>
    cases hr
    exact absurd silent heard
  | left _ h _ =>
    cases hr
    exact h answer
  | right silent' _ ih => exact .right silent' fun answer' => ih answer' hr

end Routine

open Routine (Quietly)

variable {begin m m' m₁ : Machine} {labels labels' : List Label} {label : Label}

/-- A run may go on to a machine, with so much heard of it and its sends ending so. -/
def GoesOn (begin : Machine) (labels : List Label) (m : Machine) (news : List Label)
    (results : List Bool) : Prop :=
  ∃ more, Run begin (labels ++ more) m ∧ heard more = news ∧ outcomes more = results

theorem Run.goesOn (run : Run begin labels m) : GoesOn begin labels m [] [] :=
  ⟨[], by rwa [List.append_nil], rfl, rfl⟩

theorem GoesOn.step (h : GoesOn begin labels m [] []) (step : Step m label m₁) :
    GoesOn begin labels m₁ (heard [label]) (outcomes [label]) := by
  obtain ⟨more, run, hheard, houtcomes⟩ := h
  have hrun := run.snoc step
  rw [List.append_assoc] at hrun
  refine ⟨_, hrun, ?_, ?_⟩
  · rw [heard_append, hheard, List.nil_append]
  · rw [outcomes_append, houtcomes, List.nil_append]

/-- A silent access goes by without being heard. -/
theorem GoesOn.silent {a : Access} {answer : a.Answer} {thread : Thread} (silent : Silent a)
    (h : GoesOn begin labels m (heard [.performed thread ⟨a, answer⟩])
      (outcomes [.performed thread ⟨a, answer⟩])) : GoesOn begin labels m [] [] := by
  obtain ⟨hheard, houtcome⟩ := silent.heard_eq thread answer
  rwa [hheard, outcomes, List.filterMap_cons_none houtcome] at h

/-- The network loop may make the silent accesses that it has in hand. -/
theorem GoesOn.quiet_network (h : GoesOn begin labels m [] []) {r : Routine Unit}
    (hquiet : Quietly m.network r) :
    ∃ e, GoesOn begin labels { m with engine := e, network := r } [] [] ∧
      e.forgiven = m.engine.forgiven := by
  obtain ⟨e, stage, work, calls⟩ := m
  change Quietly work r at hquiet
  induction hquiet generalizing e with
  | refl r => exact ⟨e, h, rfl⟩
  | @access a next r' silent answer _ ih =>
    let socket : Socket := fun _ _ => true
    have hstep := (h.step (.network socket rfl)).silent silent
    rw [silent.answer_eq (a.perform socket e).1 answer] at hstep
    obtain ⟨e', hrun, hforgiven⟩ := ih _ hstep
    exact ⟨e', hrun, hforgiven.trans (silent.forgiven_eq socket e)⟩

/-- So may a call in progress. -/
theorem GoesOn.quiet_call (h : GoesOn begin labels m [] []) {before after : List Pending}
    {c : Call} {r r' : Routine Unit} (hcalls : m.calls = before ++ ⟨c, r⟩ :: after)
    (hquiet : Quietly r r') :
    ∃ e, GoesOn begin labels { m with engine := e, calls := before ++ ⟨c, r'⟩ :: after } [] [] ∧
      e.forgiven = m.engine.forgiven := by
  obtain ⟨e, stage, work, calls⟩ := m
  cases (hcalls : calls = _)
  induction hquiet generalizing e with
  | refl r => exact ⟨e, h, rfl⟩
  | @access a next r' silent answer _ ih =>
    let socket : Socket := fun _ _ => true
    have hstep := (h.step (.application socket rfl)).silent silent
    rw [silent.answer_eq (a.perform socket e).1 answer] at hstep
    obtain ⟨e', hrun, hforgiven⟩ := ih _ hstep
    exact ⟨e', hrun, hforgiven.trans (silent.forgiven_eq socket e)⟩

-- ---------------------------------------------------------------------------
-- One run beside the other
-- ---------------------------------------------------------------------------

theorem forall₂_append_cons {α β : Type} {R : α → β → Prop} {before after : List α} {x : α}
    {ys : List β} (h : List.Forall₂ R (before ++ x :: after) ys) :
    ∃ before' y after', ys = before' ++ y :: after' ∧ List.Forall₂ R before before' ∧ R x y ∧
      List.Forall₂ R after after' := by
  induction before generalizing ys with
  | nil =>
    cases h with
    | cons hx hafter => exact ⟨[], _, _, rfl, .nil, hx, hafter⟩
  | cons first before ih =>
    cases h with
    | cons hfirst hrest =>
      obtain ⟨before', y, after', rfl, hbefore, hx, hafter⟩ := ih hrest
      exact ⟨_ :: before', y, after', rfl, .cons hfirst hbefore, hx, hafter⟩

/-- Calls in progress that are the same, and go on in the same way. -/
def TwinCalls (c c' : Pending) : Prop := c'.call = c.call ∧ Twin Eq c.rest c'.rest

theorem map_call_of_twins {calls calls' : List Pending}
    (h : List.Forall₂ TwinCalls calls calls') :
    calls'.map Pending.call = calls.map Pending.call := by
  induction h with
  | nil => rfl
  | cons hfirst _ ih => rw [List.map_cons, List.map_cons, hfirst.1, ih]

/-- Two machines that go on in the same way, however their sends end. -/
structure Twins (m m' : Machine) : Prop where
  stage : m'.stage = m.stage
  network : Twin Eq m.network m'.network
  calls : List.Forall₂ TwinCalls m.calls m'.calls
  engine : m'.engine.forgiven = m.engine.forgiven

theorem twins_starting (e : Engine) : Twins (.starting e) (.starting e) :=
  ⟨rfl, .done rfl, .nil, rfl⟩

/-- A machine whose network loop is idle has a twin whose loop becomes idle in silence. -/
theorem Twins.idle (h : Twins m m') (run : Run begin labels' m') (hidle : m.network = .done ()) :
    ∃ e, GoesOn begin labels' { m' with engine := e, network := .done () } [] [] ∧
      e.forgiven = m.engine.forgiven := by
  have hnetwork := h.network
  rw [hidle] at hnetwork
  obtain ⟨_, hquiet, -⟩ := hnetwork.of_done
  obtain ⟨e, hrun, hforgiven⟩ := run.goesOn.quiet_network hquiet
  exact ⟨e, hrun, hforgiven.trans h.engine⟩

/-- The twin of a machine with a call in progress has the same call in progress. -/
theorem Twins.pending (h : Twins m m') {before after : List Pending} {c : Call}
    {r : Routine Unit} (hcalls : m.calls = before ++ ⟨c, r⟩ :: after) :
    ∃ before' r' after', m'.calls = before' ++ ⟨c, r'⟩ :: after' ∧ Twin Eq r r' ∧
      List.Forall₂ TwinCalls before before' ∧ List.Forall₂ TwinCalls after after' := by
  have htwins := h.calls
  rw [hcalls] at htwins
  obtain ⟨before', ⟨c', r'⟩, after', hcalls', hbefore, ⟨hcall, htwin⟩, hafter⟩ :=
    forall₂_append_cons htwins
  cases (hcall : c' = c)
  exact ⟨before', r', after', hcalls', htwin, hbefore, hafter⟩

/-- The machine that does nothing is heard like one that makes a silent access. -/
theorem Run.goesOn_of_silent (run : Run begin labels m) {a : Access} (silent : Silent a)
    (thread : Thread) (made : a.Answer) (answer : Bool) :
    GoesOn begin labels m (heard [.performed thread ⟨a, made⟩])
      ((Label.performed thread ⟨a, made⟩).outcome?.map fun _ => answer).toList := by
  obtain ⟨hheard, houtcome⟩ := silent.heard_eq thread made
  rw [hheard, houtcome]
  exact run.goesOn

/-- A machine that makes the same access as another one is heard like it. A send may end in
another way. -/
theorem GoesOn.performed (h : GoesOn begin labels m' [] []) {a : Access} {thread : Thread}
    {answer : Bool} {m₁' : Machine}
    (step : Step m' (.performed thread ⟨a, (a.perform (fun _ _ => answer) m'.engine).1⟩) m₁')
    (hforgiven : m'.engine.forgiven = m.engine.forgiven) (socket : Socket) :
    GoesOn begin labels m₁' (heard [.performed thread ⟨a, (a.perform socket m.engine).1⟩])
      ((Label.performed thread ⟨a, (a.perform socket m.engine).1⟩).outcome?.map
        fun _ => answer).toList := by
  obtain ⟨hbare, -⟩ := perform_forgiven hforgiven socket (fun _ _ => answer) a
  have hstep := h.step step
  rw [heard_performed hbare thread] at hstep
  cases a <;> exact hstep

/-- Where a step takes the twin of a machine: so much is heard, a send of it ended like this,
and it is a twin of the machine that took the step. -/
def Follows (begin : Machine) (labels' : List Label) (label : Label) (answer : Bool)
    (m₁ : Machine) : Prop :=
  ∃ m₁', GoesOn begin labels' m₁' (heard [label])
    (label.outcome?.map fun _ => answer).toList ∧ Twins m₁ m₁'

/-- The twin follows an access of the network loop: it makes the access as well, unless that
is silent. -/
theorem Twins.network_step (h : Twins m m') (run : Run begin labels' m') {a : Access}
    {next : a.Answer → Routine Unit} (work : m.network = .access a next) (socket : Socket)
    (answer : Bool) :
    Follows begin labels' (.performed .network ⟨a, (a.perform socket m.engine).1⟩) answer
      { m with
        engine := (a.perform socket m.engine).2
        network := next (a.perform socket m.engine).1 } := by
  have hnetwork := h.network
  rw [work] at hnetwork
  by_cases silent : Silent a
  · have hforgiven := h.engine.trans (silent.forgiven_eq socket m.engine).symm
    exact ⟨m', run.goesOn_of_silent silent .network _ answer, h.stage,
      hnetwork.of_silent_access silent _, h.calls, hforgiven⟩
  · obtain ⟨next', hquiet, hnext⟩ := hnetwork.of_access silent
    obtain ⟨e, hrun, hcaught⟩ := run.goesOn.quiet_network hquiet
    have hforgiven := hcaught.trans h.engine
    obtain ⟨hbare, hleft⟩ := perform_forgiven hforgiven socket (fun _ _ => answer) a
    exact ⟨_, hrun.performed (.network (fun _ _ => answer) rfl) hforgiven socket, h.stage,
      hnext _ _ hbare, h.calls, hleft⟩

/-- So it does for an access of a call. -/
theorem Twins.application_step (h : Twins m m') (run : Run begin labels' m')
    {before after : List Pending} {c : Call} {a : Access} {next : a.Answer → Routine Unit}
    (hcalls : m.calls = before ++ ⟨c, .access a next⟩ :: after) (socket : Socket)
    (answer : Bool) :
    Follows begin labels' (.performed (.application c) ⟨a, (a.perform socket m.engine).1⟩) answer
      { m with
        engine := (a.perform socket m.engine).2
        calls := before ++ ⟨c, next (a.perform socket m.engine).1⟩ :: after } := by
  obtain ⟨before', r', after', hcalls', htwin, hbefore, hafter⟩ := h.pending hcalls
  by_cases silent : Silent a
  · have hforgiven := h.engine.trans (silent.forgiven_eq socket m.engine).symm
    refine ⟨m', run.goesOn_of_silent silent (.application c) _ answer, h.stage, h.network, ?_,
      hforgiven⟩
    rw [hcalls']
    exact List.rel_append hbefore (.cons ⟨rfl, htwin.of_silent_access silent _⟩ hafter)
  · obtain ⟨next', hquiet, hnext⟩ := htwin.of_access silent
    obtain ⟨e, hrun, hcaught⟩ := run.goesOn.quiet_call hcalls' hquiet
    have hforgiven := hcaught.trans h.engine
    obtain ⟨hbare, hleft⟩ := perform_forgiven hforgiven socket (fun _ _ => answer) a
    exact ⟨_, hrun.performed (.application (fun _ _ => answer) rfl) hforgiven socket, h.stage,
      h.network, List.rel_append hbefore (.cons ⟨rfl, hnext _ _ hbare⟩ hafter), hleft⟩

/-- Whatever step a machine takes, its twin takes it after silent accesses, and a send of the
twin may end in any way. -/
theorem Twins.step (h : Twins m m') (run : Run begin labels' m') (step : Step m label m₁)
    (answer : Bool) : Follows begin labels' label answer m₁ := by
  have hsetup : ∀ {e : Engine}, e.forgiven = m.engine.forgiven → e.setup = m.engine.setup :=
    fun h => (congrArg Engine.setup h :)
  have hrunning : ∀ {e : Engine}, e.forgiven = m.engine.forgiven → e.running = m.engine.running :=
    fun h => (congrArg Engine.running h :)
  cases step with
  | housekeeping due now stage running idle =>
    obtain ⟨e, hquiet, hforgiven⟩ := h.idle run idle
    have hstep := hquiet.step (.housekeeping due now (h.stage.trans stage)
      ((hrunning hforgiven).trans running) rfl)
    refine ⟨_, hstep, rfl, ?_, h.calls, hforgiven⟩
    rw [hsetup hforgiven]
    exact twin_upkeep m.engine.setup due now
  | receive datagram origin now stage idle =>
    obtain ⟨e, hquiet, hforgiven⟩ := h.idle run idle
    have hstep := hquiet.step (.receive datagram origin now (h.stage.trans stage) rfl)
    refine ⟨_, hstep, rfl, ?_, h.calls, hforgiven⟩
    rw [hsetup hforgiven]
    exact twin_handle m.engine.setup datagram origin now
  | lapse stage idle =>
    obtain ⟨e, hquiet, hforgiven⟩ := h.idle run idle
    refine ⟨_, hquiet.step (.lapse (h.stage.trans stage) rfl), rfl, ?_, h.calls, hforgiven⟩
    rw [idle]
    exact .done rfl
  | finish stage stopped idle =>
    obtain ⟨e, hquiet, hforgiven⟩ := h.idle run idle
    have hstep := hquiet.step (.finish (h.stage.trans stage)
      ((hrunning hforgiven).trans stopped) rfl)
    refine ⟨_, hstep, rfl, ?_, h.calls, hforgiven⟩
    rw [idle]
    exact .done rfl
  | call c =>
    refine ⟨_, run.goesOn.step (.call c), h.stage, h.network, ?_, h.engine⟩
    exact List.rel_append h.calls (.cons ⟨rfl, twin_begun h.engine c⟩ .nil)
  | leave hcalls join =>
    obtain ⟨before', r', after', hcalls', htwin, hbefore, hafter⟩ := h.pending hcalls
    obtain ⟨_, hquiet, -⟩ := htwin.of_done
    obtain ⟨e, hrun, hforgiven⟩ := run.goesOn.quiet_call hcalls' hquiet
    have hstep := hrun.step (.leave rfl fun hstop => h.stage.trans (join hstop))
    exact ⟨_, hstep, h.stage, h.network, List.rel_append hbefore hafter,
      hforgiven.trans h.engine⟩
  | network socket work => exact h.network_step run work socket answer
  | application socket hcalls => exact h.application_step run hcalls socket answer

/-- Beside every run there is one whose sends end as one likes. -/
theorem Run.twins {e : Engine} (run : Run (.starting e) labels m) (results : List Bool)
    (hlength : results.length = (outcomes labels).length) :
    ∃ labels' m', Run (.starting e) labels' m' ∧ heard labels' = heard labels ∧
      outcomes labels' = results ∧ Twins m m' := by
  induction run generalizing results with
  | nil =>
    cases List.eq_nil_of_length_eq_zero hlength
    exact ⟨[], _, .nil, rfl, rfl, twins_starting e⟩
  | @snoc labels m m₁ label run step ih =>
    have houtcomes : outcomes (labels ++ [label]) = outcomes labels ++ label.outcome?.toList :=
      filterMap_snoc ..
    obtain ⟨init, answer, rfl, hinit⟩ : ∃ init answer,
        results = init ++ (label.outcome?.map fun _ => answer).toList ∧
          init.length = (outcomes labels).length := by
      rw [houtcomes, List.length_append] at hlength
      cases houtcome : label.outcome? with
      | none =>
        rw [houtcome] at hlength
        exact ⟨results, true, (List.append_nil results).symm, hlength⟩
      | some _ =>
        rw [houtcome] at hlength
        rcases List.eq_nil_or_concat' results with rfl | ⟨init, answer, rfl⟩
        · cases hlength
        · rw [List.length_append] at hlength
          exact ⟨init, answer, rfl, Nat.add_right_cancel hlength⟩
    obtain ⟨labels', m', run', hheard, hresults, htwins⟩ := ih init hinit
    obtain ⟨m₁', ⟨more, hrun, hmore, hmore'⟩, htwins'⟩ := htwins.step run' step answer
    refine ⟨_, m₁', hrun, ?_, ?_, htwins'⟩
    · rw [heard_append, heard_append, hheard, hmore]
    · rw [outcomes_append, hresults, hmore']

-- ---------------------------------------------------------------------------
-- What is asked determines what is told
-- ---------------------------------------------------------------------------

/-- The access of a step, if it is heard. -/
def Label.access? : Label → Option Access
  | .performed _ p => if Silent p.access then none else some p.access
  | _ => none

/-- The access of a step with its answer, as it is heard. -/
def Label.told? : Label → Option Performed
  | .performed _ ⟨a, answer⟩ => if Silent a then none else some ⟨a, a.bare answer⟩
  | _ => none

/-- The accesses of a run, in order, but for silent ones. -/
def asked (labels : List Label) : List Access := labels.filterMap Label.access?

/-- The accesses of a run with their answers, but for what sends tell. -/
def told (labels : List Label) : List Performed := labels.filterMap Label.told?

/-- Accesses one after the other, all sends of which succeed: what they give, and the engine
after them. -/
def replay (e : Engine) (accesses : List Access) : List Performed × Engine :=
  accesses.foldl (fun (given, e) a =>
    (given ++ [⟨a, a.bare (a.perform (fun _ _ => true) e).1⟩],
      (a.perform (fun _ _ => true) e).2)) ([], e)

theorem replay_snoc (e : Engine) (accesses : List Access) (a : Access) :
    replay e (accesses ++ [a]) =
      ((replay e accesses).1 ++ [⟨a, a.bare (a.perform (fun _ _ => true) (replay e accesses).2).1⟩],
        (a.perform (fun _ _ => true) (replay e accesses).2).2) := by
  rw [replay, List.foldl_append]
  rfl

/-- What a run asks determines what it is told and what engine it leaves. -/
theorem Run.replayed (run : Run begin labels m) :
    told labels = (replay begin.engine (asked labels)).1 ∧
      m.engine.forgiven = (replay begin.engine (asked labels)).2.forgiven := by
  induction run with
  | nil => exact ⟨rfl, rfl⟩
  | @snoc labels m m₁ label run step ih =>
    obtain ⟨htold, hforgiven⟩ := ih
    have hasked : asked (labels ++ [label]) = asked labels ++ label.access?.toList :=
      filterMap_snoc ..
    have hsnoc : told (labels ++ [label]) = told labels ++ label.told?.toList :=
      filterMap_snoc ..
    rw [hasked, hsnoc, htold]
    rcases step.engine_cases with ⟨hengine, hlabel⟩ | ⟨thread, a, socket, rfl, hengine⟩
    · have hnone : label.access? = none ∧ label.told? = none := by
        cases label with
        | performed thread p => exact absurd rfl (hlabel thread p)
        | _ => exact ⟨rfl, rfl⟩
      rw [hnone.1, hnone.2, hengine, Option.toList_none, Option.toList_none, List.append_nil,
        List.append_nil]
      exact ⟨rfl, hforgiven⟩
    · rw [hengine]
      by_cases silent : Silent a
      · simp only [Label.access?, Label.told?, if_pos silent, Option.toList_none, List.append_nil]
        exact ⟨trivial, (silent.forgiven_eq socket m.engine).trans hforgiven⟩
      · obtain ⟨hbare, hleft⟩ := perform_forgiven hforgiven (fun _ _ => true) socket a
        simp only [Label.access?, Label.told?, if_neg silent, Option.toList_some, replay_snoc,
          hbare, hleft]
        exact ⟨trivial, trivial⟩

-- ---------------------------------------------------------------------------
-- All of it
-- ---------------------------------------------------------------------------

/-- **Failed sends are contained.** Which sends succeed influences nothing but the failures of
neighbors, the counters of sends, and how many frames a call says have left.

* Take any sequence of datagrams, calls and housekeeping passes, and any two sockets. The
  replies are the same, the events and the neighbors that were drawn included, but for the
  numbers of frames; so are the times of the next greeting and of the deadline; and the engines
  are akin: they have the same neighbors at the same addresses, last heard from at the same
  times and in the same order, the same queue, the same attempts to send, and the same counts
  of datagrams, refused events and evictions.
* Let the network loop and the application interrupt each other in any way. For every run, and
  for any other outcomes of its sends, there is a run with these of which the same is heard,
  and at the end of which the same calls are in progress and the engines are akin. What is
  heard of a run is everything but blaming neighbors and counting sends.
* In any two runs that make the same accesses in the same order, but for that, these accesses
  give the same, and the engines are akin. -/
theorem send_failures_are_contained :
    (∀ (socket socket' : Socket) (p : Progress) (turns : List Turn),
      let one := p.turns socket turns
      let other := p.turns socket' turns
      other.replies.map (Except.map Reply.bare) = one.replies.map (Except.map Reply.bare) ∧
        other.schedule = one.schedule ∧ Akin one.engine other.engine) ∧
    (∀ (e : Engine) (labels : List Label) (m : Machine) (results : List Bool),
      Run (.starting e) labels m → results.length = (outcomes labels).length →
      ∃ labels' m', Run (.starting e) labels' m' ∧ heard labels' = heard labels ∧
        outcomes labels' = results ∧ m'.stage = m.stage ∧
        m'.calls.map Pending.call = m.calls.map Pending.call ∧ Akin m.engine m'.engine) ∧
    (∀ (begin : Machine) (labels labels' : List Label) (m m' : Machine),
      Run begin labels m → Run begin labels' m' → asked labels' = asked labels →
      told labels' = told labels ∧ Akin m.engine m'.engine) := by
  refine ⟨?_, ?_, ?_⟩
  · intro socket socket' p turns one other
    have hsame : other.forgiven = one.forgiven := Progress.turns_forgiven rfl socket socket' turns
    exact ⟨congrArg Progress.replies hsame, (congrArg Progress.schedule hsame :),
      akin_of_forgiven_eq (congrArg Progress.engine hsame)⟩
  · intro e labels m results run hlength
    obtain ⟨labels', m', run', hheard, houtcomes, htwins⟩ := run.twins results hlength
    exact ⟨labels', m', run', hheard, houtcomes, htwins.stage, map_call_of_twins htwins.calls,
      akin_of_forgiven_eq htwins.engine⟩
  · intro begin labels labels' m m' run run' hasked
    obtain ⟨htold, hforgiven⟩ := run.replayed
    obtain ⟨htold', hforgiven'⟩ := run'.replayed
    rw [hasked] at htold' hforgiven'
    exact ⟨htold'.trans htold.symm, akin_of_forgiven_eq (hforgiven'.trans hforgiven.symm)⟩

/-- A greeting that leaves and one that does not; and a formula for a neighbor who is evicted
before the send, which succeeds, or fails and has nobody left to blame. -/
theorem send_failures_are_contained_of_eviction :
    let e := { fresh (.standard 1 0 ⟨[]⟩) (.anyHost 7) with
      neighbors := ⟨1, [⟨2, .anyHost 8, 0, 0⟩]⟩ }
    let p : Progress := ⟨.starting 0, e, []⟩
    let one := p.turns (fun _ _ => true) [.call .sendHello]
    let other := p.turns (fun _ _ => false) [.call .sendHello]
    (one.replies = [.ok (.sent 1)] ∧ other.replies = [.ok (.sent 0)] ∧
      Akin one.engine other.engine) ∧
    ∃ labels m, Run (.starting e) labels m ∧ outcomes labels = [true] ∧
      m.engine.neighbors.entries = [] ∧
      (∃ labels' m', Run (.starting e) labels' m' ∧ outcomes labels' = [false] ∧
        heard labels' = heard labels ∧ Akin m.engine m'.engine) ∧
      ∃ labels' m', Run (.starting e) labels' m' ∧ m'.engine.stats.sendFailures = 1 ∧
        told labels' = told labels ∧ Akin m.engine m'.engine := by
  intro e p one other
  obtain ⟨hturns, hbeside, hsame⟩ := send_failures_are_contained
  let share := Call.sendToRandom 0 ⟨.empty, .one, .zero⟩
  let now := Duration.ofMillis 1000000000
  let up : Socket := fun _ _ => true
  let down : Socket := fun _ _ => false
  -- The neighbor is drawn, and evicted before the frame is sent.
  have h1 : Run (.starting e) _ _ := .snoc .nil (.call share)
  have h2 := h1.snoc (@Step.application _ [] [] _ _ _ up rfl)
  have h3 := h2.snoc (.housekeeping false now rfl rfl rfl)
  have h4 := (h3.snoc (.network up rfl)).snoc (.network up rfl)
  have hsent := h4.snoc (@Step.application _ [] [] _ _ _ up rfl)
  have hcounted := hsent.snoc (@Step.application _ [] [] _ _ _ up rfl)
  have hfailed := h4.snoc (@Step.application _ [] [] _ _ _ down rfl)
  have hblamed := (hfailed.snoc (@Step.application _ [] [] _ _ _ down rfl)).snoc
    (@Step.application _ [] [] _ _ _ down rfl)
  obtain ⟨htold, hakin⟩ := hsame _ _ _ _ _ hcounted hblamed rfl
  obtain ⟨labels', m', run', hheard, houtcomes, -, -, hakin'⟩ :=
    hbeside _ _ _ [false] hcounted rfl
  exact ⟨⟨rfl, rfl, (hturns _ _ p _).2.2⟩, _, _, hcounted, rfl, rfl,
    ⟨labels', m', run', houtcomes, hheard, hakin'⟩, _, _, hblamed, rfl, htold, hakin⟩

end Engine

end AffineSwarm
