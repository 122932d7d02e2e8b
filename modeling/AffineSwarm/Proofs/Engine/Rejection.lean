import AffineSwarm.Engine.Turn
import AffineSwarm.Proofs.Engine.Uninterrupted
import Mathlib.Data.List.Basic

/-!
# Rejected datagrams

A datagram that is no valid frame is counted twice, as received and as dropped, and
forgotten. Nothing that an engine does looks at these two counts (`run_discarding`), so a
run with such datagrams is the run without them, but for the counts (`turns_eq`).

The same holds where the network loop and the application interrupt each other. A wait that
ends with a rejected datagram might as well have ended with none, or with another one
(`Lull`), and the other thread goes on as it did (`Shadow`). The two runs are not in step
while the loop of one is still counting what the other did not get; `Behind` says what is
left to count.

## Results

* `handle_of_rejects` — every rejected datagram is handled alike.
* `run_discarding` — no routine looks at the counts.
* `turns_eq` — a run is the run without what it rejects.
* `Shadow.step` — one run follows another with other rejected datagrams.
* `rejections_are_invisible` — all of it, for two runs.
-/

namespace AffineSwarm

open Engine (receiveLimit)

-- ---------------------------------------------------------------------------
-- Rejection
-- ---------------------------------------------------------------------------

namespace Frame

/-- Whether bytes are no valid frame, for whatever reason. -/
def rejects (hash : KeyedHash) (bytes : List UInt8) : Bool := !(decode hash bytes).isOk

/-- An over-long datagram has no valid frame among its first bytes. -/
theorem isOk_decode_take (hash : KeyedHash) (datagram : List UInt8) :
    (decode hash (datagram.take receiveLimit)).isOk = (decode hash datagram).isOk := by
  cases hwhole : decode hash datagram with
  | ok m => rw [decode_take_receiveLimit.mpr hwhole]
  | error _ =>
    cases hfirst : decode hash (datagram.take receiveLimit) with
    | ok m =>
      rw [decode_take_receiveLimit.mp hfirst] at hwhole
      cases hwhole
    | error _ => rfl

end Frame

/-- What a counter stands at. -/
def Stats.read (s : Stats) : Counter → Nat
  | .datagramsReceived => s.datagramsReceived
  | .datagramsDropped => s.datagramsDropped
  | .hellosSent => s.hellosSent
  | .formulasSent => s.formulasSent
  | .acksSent => s.acksSent
  | .acksReceived => s.acksReceived
  | .sendFailures => s.sendFailures
  | .eventsRejected => s.eventsRejected
  | .neighborsEvicted => s.neighborsEvicted

namespace Engine

/-- Count a datagram and forget it. -/
def discard : Routine Unit :=
  .access (.count .datagramsReceived 1) fun _ => .access (.count .datagramsDropped 1) .done

/-- Why a datagram is rejected does not matter. -/
theorem handle_of_rejects {s : Setup} {datagram : List UInt8}
    (h : Frame.rejects s.hash datagram = true) (origin : Address) (now : Nat) :
    handle s datagram origin now = discard := by
  rw [Frame.rejects, ← Frame.isOk_decode_take, Bool.not_eq_true'] at h
  rw [handle]
  cases hdecode : Frame.decode s.hash (datagram.take receiveLimit) with
  | error _ => rfl
  | ok m =>
    rw [hdecode] at h
    cases h

-- ---------------------------------------------------------------------------
-- Two counts that nothing looks at
-- ---------------------------------------------------------------------------

/-- An engine that has received and dropped some datagrams more. -/
def discarding (received dropped : Nat) (e : Engine) : Engine :=
  { e with stats :=
    { e.stats with
      datagramsReceived := e.stats.datagramsReceived + received
      datagramsDropped := e.stats.datagramsDropped + dropped } }

/-- Two engines that differ in nothing but what they counted as received and dropped. -/
structure Alike (e e' : Engine) : Prop where
  setup : e'.setup = e.setup
  neighbors : e'.neighbors = e.neighbors
  events : e'.events = e.events
  running : e'.running = e.running
  attempts : e'.attempts = e.attempts
  outbox : e'.outbox = e.outbox
  counters : ∀ counter, counter ≠ .datagramsReceived → counter ≠ .datagramsDropped →
    e'.stats.read counter = e.stats.read counter

/-- Two engines that differ in nothing but that they discarded so and so many datagrams. -/
structure AlikeBut (n n' : Nat) (e e' : Engine) : Prop extends Alike e e' where
  received : e.stats.datagramsReceived + n' = e'.stats.datagramsReceived + n
  dropped : e.stats.datagramsDropped + n' = e'.stats.datagramsDropped + n

theorem alike_of_discarding_eq {e e' : Engine} {r d r' d' : Nat}
    (h : e.discarding r d = e'.discarding r' d') : Alike e e' where
  setup := (congrArg Engine.setup h.symm :)
  neighbors := (congrArg Engine.neighbors h.symm :)
  events := (congrArg Engine.events h.symm :)
  running := (congrArg Engine.running h.symm :)
  attempts := (congrArg Engine.attempts h.symm :)
  outbox := (congrArg Engine.outbox h.symm :)
  counters counter hreceived hdropped := by
    have hread := congrArg (·.stats.read counter) h.symm
    cases counter with
    | datagramsReceived => exact absurd rfl hreceived
    | datagramsDropped => exact absurd rfl hdropped
    | _ => exact hread

theorem alikeBut_of_discarding_eq {e e' : Engine} {n n' : Nat}
    (h : e.discarding n' n' = e'.discarding n n) : AlikeBut n n' e e' where
  toAlike := alike_of_discarding_eq h
  received := congrArg (·.stats.datagramsReceived) h
  dropped := congrArg (·.stats.datagramsDropped) h

section Discarding

variable (socket : Socket) (r d : Nat) (e : Engine)

@[simp] theorem setup_discarding : (e.discarding r d).setup = e.setup := rfl

theorem discarding_discarding (r' d' : Nat) :
    (e.discarding r d).discarding r' d' = e.discarding (r + r') (d + d') := by
  simp only [discarding, Nat.add_assoc]

/-- No access looks at the counts. -/
theorem perform_discarding (a : Access) :
    a.perform socket (e.discarding r d) =
      ((a.perform socket e).1, (a.perform socket e).2.discarding r d) := by
  cases a with
  | upsert id address now =>
    simp only [Access.perform, discarding]
    split <;> rfl
  | recordFailure id =>
    simp only [Access.perform, discarding]
    split <;> rfl
  | count counter n =>
    cases counter <;> simp only [Access.perform, discarding, Stats.add, Nat.add_right_comm]
  | _ => rfl

theorem run_discarding {α : Type} (routine : Routine α) :
    routine.run socket (e.discarding r d) =
      ((routine.run socket e).1, (routine.run socket e).2.discarding r d) := by
  induction routine generalizing e with
  | done result => rfl
  | access a next ih =>
    simp only [Routine.run, perform_discarding]
    exact ih ..

theorem handleDatagram_discarding (datagram : List UInt8) (origin : Address) (now : Nat) :
    (e.discarding r d).handleDatagram socket datagram origin now =
      (e.handleDatagram socket datagram origin now).discarding r d := by
  simp only [handleDatagram, run_discarding, setup_discarding]

theorem housekeeping_discarding (now : Nat) (s : Schedule) :
    housekeeping socket now s (e.discarding r d) =
      ((housekeeping socket now s e).1, (housekeeping socket now s e).2.discarding r d) := by
  simp only [housekeeping, run_discarding, setup_discarding]

/-- Handling a rejected datagram is counting it, twice. -/
theorem handleDatagram_of_rejects {datagram : List UInt8}
    (h : Frame.rejects e.setup.hash datagram = true) (origin : Address) (now : Nat) :
    e.handleDatagram socket datagram origin now = e.discarding 1 1 := by
  rw [handleDatagram, handle_of_rejects h]
  rfl

/-- No call gives another reply. -/
theorem make_discarding (c : Call) :
    c.make socket (e.discarding r d) =
      ((c.make socket e).1, (c.make socket e).2.discarding r d) := by
  have hrunning : (e.discarding r d).running = e.running := rfl
  cases c with
  | nextEvent => rfl
  | drainEvents => rfl
  | stop => rfl
  | addStaticNeighbor address id now =>
    simp only [Call.make, addStaticNeighbor, whileRunning, hrunning, run_discarding,
      setup_discarding]
    split
    · generalize (introduce e.setup address id now).run socket e = outcome
      obtain ⟨_ | _, e'⟩ := outcome <;> rfl
    · rfl
  | _ =>
    simp only [Call.make, sendHello, sendToRandom, sendToAll, whileRunning, hrunning,
      run_discarding, setup_discarding]
    split <;> rfl

end Discarding

-- ---------------------------------------------------------------------------
-- Turns
-- ---------------------------------------------------------------------------

/-- A datagram that is rejected. -/
def Turn.isRejected (hash : KeyedHash) : Turn → Bool
  | .datagram bytes _ _ => Frame.rejects hash bytes
  | _ => false

/-- The turns but for the rejected datagrams. -/
def heeded (hash : KeyedHash) (turns : List Turn) : List Turn :=
  turns.filter fun turn => !turn.isRejected hash

/-- How many rejected datagrams are among the turns. -/
def rejections (hash : KeyedHash) (turns : List Turn) : Nat :=
  turns.countP (·.isRejected hash)

def Progress.discarding (n : Nat) (p : Progress) : Progress :=
  { p with engine := p.engine.discarding n n }

theorem setup_make (socket : Socket) (c : Call) (e : Engine) :
    (c.make socket e).2.setup = e.setup := by
  cases c with
  | nextEvent => rfl
  | drainEvents => rfl
  | stop => rfl
  | addStaticNeighbor address id now =>
    have hrun := setup_run socket (introduce e.setup address id now) e
    simp only [Call.make, addStaticNeighbor, whileRunning]
    split
    · generalize (introduce e.setup address id now).run socket e = outcome at hrun
      obtain ⟨_ | _, e'⟩ := outcome
      · rfl
      · exact hrun
    · rfl
  | _ =>
    simp only [Call.make, sendHello, sendToRandom, sendToAll, whileRunning]
    split
    · exact setup_run ..
    · rfl

namespace Progress

variable (socket : Socket)

theorem setup_turn (p : Progress) (t : Turn) :
    (p.turn socket t).engine.setup = p.engine.setup := by
  cases t with
  | datagram bytes origin now => exact setup_handleDatagram ..
  | pass now => exact setup_run ..
  | call c => exact setup_make ..

theorem turn_discarding (n : Nat) (p : Progress) (t : Turn) :
    (p.discarding n).turn socket t = (p.turn socket t).discarding n := by
  cases t with
  | datagram bytes origin now => simp only [turn, discarding, handleDatagram_discarding]
  | pass now => simp only [turn, discarding, housekeeping_discarding]
  | call c => simp only [turn, discarding, make_discarding]

theorem turns_discarding (n : Nat) (p : Progress) (turns : List Turn) :
    (p.discarding n).turns socket turns = (p.turns socket turns).discarding n := by
  induction turns generalizing p with
  | nil => rfl
  | cons t rest ih => exact (congrArg (·.turns socket rest) (turn_discarding ..)).trans (ih _)

/-- A rejected datagram counts, and that is all. -/
theorem turn_of_isRejected {p : Progress} {t : Turn}
    (h : t.isRejected p.engine.setup.hash = true) : p.turn socket t = p.discarding 1 := by
  cases t with
  | datagram bytes origin now =>
    rw [turn, handleDatagram_of_rejects socket p.engine h]
    rfl
  | pass now => cases h
  | call c => cases h

/-- A run is the run without what it rejects, but for the two counts. -/
theorem turns_eq (p : Progress) (turns : List Turn) :
    p.turns socket turns =
      (p.turns socket (heeded p.engine.setup.hash turns)).discarding
        (rejections p.engine.setup.hash turns) := by
  induction turns generalizing p with
  | nil => rfl
  | cons t rest ih =>
    by_cases hrejected : t.isRejected p.engine.setup.hash = true
    · have hcount : rejections p.engine.setup.hash (t :: rest) =
          rejections p.engine.setup.hash rest + 1 := List.countP_cons_of_pos hrejected
      have hheeded : heeded p.engine.setup.hash (t :: rest) =
          heeded p.engine.setup.hash rest := List.filter_cons_of_neg (by simp [hrejected])
      calc p.turns socket (t :: rest)
        _ = (p.discarding 1).turns socket rest := by
            rw [← turn_of_isRejected socket hrejected]
            rfl
        _ = ((p.turns socket (heeded p.engine.setup.hash rest)).discarding
              (rejections p.engine.setup.hash rest)).discarding 1 := by
            rw [turns_discarding, ← ih]
        _ = _ := by
            rw [hcount, hheeded, discarding, discarding, discarding_discarding]
            rfl
    · have hcount : rejections p.engine.setup.hash (t :: rest) =
          rejections p.engine.setup.hash rest := List.countP_cons_of_neg hrejected
      have hheeded : heeded p.engine.setup.hash (t :: rest) =
          t :: heeded p.engine.setup.hash rest := List.filter_cons_of_pos (by simp [hrejected])
      have hrest := ih (p.turn socket t)
      rw [setup_turn] at hrest
      rw [hcount, hheeded]
      exact hrest

end Progress

-- ---------------------------------------------------------------------------
-- Waits that end without a message
-- ---------------------------------------------------------------------------

/-- What a wait ends with that does not end with a message: no datagram, or one that is
rejected. -/
abbrev Lull := Option (List UInt8 × Address × Nat)

def Lull.isRejected (hash : KeyedHash) (lull : Lull) : Bool :=
  lull.all fun (datagram, _, _) => Frame.rejects hash datagram

def Label.lull? (hash : KeyedHash) : Label → Option Lull
  | .lapsed => some none
  | .received datagram origin now =>
    if Frame.rejects hash datagram then some (some (datagram, origin, now)) else none
  | _ => none

/-- A step as it shows to whom cannot tell a rejected datagram from none: the end of a wait,
but not with what, and no counting of datagrams. -/
def Label.shown? (hash : KeyedHash) : Label → Option Label
  | .received datagram origin now =>
    some (if Frame.rejects hash datagram then .lapsed else .received datagram origin now)
  | .performed .network ⟨.count .datagramsReceived _, _⟩ => none
  | .performed .network ⟨.count .datagramsDropped _, _⟩ => none
  | label => some label

def lulls (hash : KeyedHash) (labels : List Label) : List Lull := labels.filterMap (·.lull? hash)

def shown (hash : KeyedHash) (labels : List Label) : List Label :=
  labels.filterMap (·.shown? hash)

/-- How many datagrams came in lulls. -/
def discarded (lulls : List Lull) : Nat := lulls.countP Option.isSome

/-- How far the network loop of one machine is behind that of another, which is through with
the last rejected datagram: what each has in hand, and what the first has still to count. -/
inductive Behind : Routine Unit → Routine Unit → Nat → Nat → Prop
  | level (work : Routine Unit) : Behind work work 0 0
  | received : Behind discard (.done ()) 1 1
  | dropped : Behind (.access (.count .datagramsDropped 1) .done) (.done ()) 0 1

/-- A machine that does what another does, where one had so and so many rejected datagrams
and the other so and so many. -/
structure Shadow (n n' : Nat) (m m' : Machine) : Prop where
  stage : m'.stage = m.stage
  calls : m'.calls = m.calls
  behind : ∃ r d, Behind m.network m'.network r d ∧
    m.engine.discarding (n' + r) (n' + d) = m'.engine.discarding n n

variable {n n' : Nat} {begin m m' m₁ : Machine} {label : Label} {labels' : List Label}

theorem Shadow.refl (m : Machine) : Shadow 0 0 m m := ⟨rfl, rfl, 0, 0, .level _, rfl⟩

theorem Shadow.alike (h : Shadow n n' m m') : Alike m.engine m'.engine := by
  obtain ⟨r, d, -, heq⟩ := h.behind
  exact alike_of_discarding_eq heq

/-- A loop that has nothing in hand is not behind. -/
theorem Shadow.idle (h : Shadow n n' m m') (hidle : m.network = .done ()) :
    m'.network = .done () ∧ m.engine.discarding n' n' = m'.engine.discarding n n := by
  obtain ⟨r, d, hbehind, heq⟩ := h.behind
  rw [hidle] at hbehind
  generalize hwork : m'.network = work at hbehind
  cases hbehind
  exact ⟨rfl, heq⟩

/-- An access gives the same to both, and leaves what one has still to count. -/
theorem perform_eq_of_discarding_eq {e e' : Engine} {r d r' d' : Nat}
    (h : e.discarding r d = e'.discarding r' d') (socket : Socket) (a : Access) :
    (a.perform socket e').1 = (a.perform socket e).1 ∧
    (a.perform socket e).2.discarding r d = (a.perform socket e').2.discarding r' d' := by
  have hperform := congrArg (a.perform socket) h
  rw [perform_discarding, perform_discarding] at hperform
  exact ⟨(congrArg Prod.fst hperform).symm, congrArg Prod.snd hperform⟩

/-- A step that is no lull is a step of both, unless one is only catching up. -/
theorem Shadow.step (h : Shadow n n' m m') {hash : KeyedHash} (run : Run begin labels' m')
    (step : Step m label m₁) (hlull : label.lull? hash = none) :
    ∃ more m₁', Run begin (labels' ++ more) m₁' ∧ shown hash more = shown hash [label] ∧
      lulls hash more = [] ∧ Shadow n n' m₁ m₁' := by
  have halike := h.alike
  have hlulls : lulls hash [label] = [] := by
    rw [lulls, List.filterMap_cons_none hlull, List.filterMap_nil]
  cases step with
  | housekeeping due now stage running idle =>
    obtain ⟨hidle, heq⟩ := h.idle idle
    have hrun := run.snoc (.housekeeping due now (h.stage.trans stage)
      (halike.running.trans running) hidle)
    rw [halike.setup] at hrun
    exact ⟨_, _, hrun, rfl, hlulls, rfl, h.calls, 0, 0, .level _, heq⟩
  | receive datagram origin now stage idle =>
    obtain ⟨hidle, heq⟩ := h.idle idle
    have hrun := run.snoc (.receive datagram origin now (h.stage.trans stage) hidle)
    rw [halike.setup] at hrun
    exact ⟨_, _, hrun, rfl, hlulls, rfl, h.calls, 0, 0, .level _, heq⟩
  | lapse stage idle => cases hlull
  | finish stage stopped idle =>
    obtain ⟨hidle, -⟩ := h.idle idle
    have hrun := run.snoc (.finish (h.stage.trans stage) (halike.running.trans stopped) hidle)
    exact ⟨_, _, hrun, rfl, hlulls, rfl, h.calls, h.behind⟩
  | call c =>
    have hbegun : c.begun m'.engine = c.begun m.engine := by
      rw [Call.begun, Call.begun, halike.running, halike.setup]
    have hrun := run.snoc (.call c)
    rw [hbegun, h.calls] at hrun
    exact ⟨_, _, hrun, rfl, hlulls, h.stage, rfl, h.behind⟩
  | leave hcalls join =>
    have hrun := run.snoc (.leave (h.calls.trans hcalls) fun hstop => h.stage.trans (join hstop))
    exact ⟨_, _, hrun, rfl, hlulls, h.stage, rfl, h.behind⟩
  | @network a next socket work =>
    obtain ⟨r, d, hbehind, heq⟩ := h.behind
    obtain ⟨hanswer, hafter⟩ := perform_eq_of_discarding_eq heq socket a
    rw [work] at hbehind
    generalize hwork : m'.network = work' at hbehind
    cases hbehind with
    | level =>
      have hrun := run.snoc (.network socket hwork)
      rw [hanswer] at hrun
      exact ⟨_, _, hrun, rfl, hlulls, h.stage, h.calls, 0, 0, .level _, hafter⟩
    | received =>
      refine ⟨[], m', by rwa [List.append_nil], rfl, rfl, h.stage, h.calls, 0, 1, ?_, ?_⟩
      · rw [hwork]
        exact .dropped
      · have hcount := discarding_discarding 1 0 m.engine n' (n' + 1)
        rw [Nat.zero_add, Nat.add_comm 1] at hcount
        exact hcount.trans heq
    | dropped =>
      refine ⟨[], m', by rwa [List.append_nil], rfl, rfl, h.stage, h.calls, 0, 0, ?_, ?_⟩
      · rw [hwork]
        exact .level _
      · have hcount := discarding_discarding 0 1 m.engine n' n'
        rw [Nat.zero_add, Nat.add_comm 1] at hcount
        exact hcount.trans heq
  | @application before after c a next socket hcalls =>
    obtain ⟨r, d, hbehind, heq⟩ := h.behind
    obtain ⟨hanswer, hafter⟩ := perform_eq_of_discarding_eq heq socket a
    have hrun := run.snoc (.application socket (h.calls.trans hcalls))
    rw [hanswer] at hrun
    exact ⟨_, _, hrun, rfl, hlulls, h.stage, rfl, r, d, hbehind, hafter⟩

/-- A wait of a machine may end with any lull, which the machine then gets through with. -/
theorem Run.lull (run : Run begin labels' m') (lull : Lull) (stage : m'.stage = .waiting)
    (idle : m'.network = .done ())
    (hrejected : lull.isRejected m'.engine.setup.hash = true) :
    ∃ more, Run begin (labels' ++ more)
        { m' with
          stage := .looking
          engine := m'.engine.discarding (discarded [lull]) (discarded [lull]) } ∧
      shown m'.engine.setup.hash more = [.lapsed] ∧
      lulls m'.engine.setup.hash more = [lull] := by
  cases lull with
  | none => exact ⟨_, run.snoc (.lapse stage idle), rfl, rfl⟩
  | some received =>
    obtain ⟨datagram, origin, now⟩ := received
    change Frame.rejects m'.engine.setup.hash datagram = true at hrejected
    have hreceived := run.snoc (.receive datagram origin now stage idle)
    rw [handle_of_rejects hrejected] at hreceived
    have hcounted := (hreceived.snoc (.network (fun _ _ => true) rfl)).snoc
      (.network (fun _ _ => true) rfl)
    rw [List.append_assoc, List.append_assoc] at hcounted
    obtain ⟨e, stage, network, calls⟩ := m'
    cases idle
    refine ⟨_, hcounted, ?_, ?_⟩
    · simp [shown, Label.shown?, hrejected]
    · simp [lulls, Label.lull?, hrejected]

/-- What a lull leaves the loop with: nothing, or a datagram to count. -/
theorem Step.of_lull {lull : Lull} (step : Step m label m₁)
    (hlull : label.lull? m.engine.setup.hash = some lull) :
    m.stage = .waiting ∧ m.network = .done () ∧
    shown m.engine.setup.hash [label] = [.lapsed] ∧
    ∃ rest, m₁ = { m with stage := .looking, network := rest } ∧
      Behind rest (.done ()) (discarded [lull]) (discarded [lull]) := by
  cases step with
  | lapse stage idle =>
    cases hlull
    exact ⟨stage, idle, rfl, .done (), by rw [← idle], .level _⟩
  | receive datagram origin now stage idle =>
    by_cases hrejected : Frame.rejects m.engine.setup.hash datagram = true
    · rw [Label.lull?, if_pos hrejected] at hlull
      cases hlull
      refine ⟨stage, idle, ?_, discard, ?_, .received⟩
      · simp [shown, Label.shown?, hrejected]
      · rw [handle_of_rejects hrejected]
    · rw [Label.lull?, if_neg hrejected] at hlull
      cases hlull
  | _ => cases hlull

/-- One lull is as good as another. -/
theorem Shadow.lull (h : Shadow n n' m m') {lull lull' : Lull} (run : Run begin labels' m')
    (step : Step m label m₁) (hlull : label.lull? m.engine.setup.hash = some lull)
    (hrejected : lull'.isRejected m.engine.setup.hash = true) :
    ∃ more m₁', Run begin (labels' ++ more) m₁' ∧
      shown m.engine.setup.hash more = shown m.engine.setup.hash [label] ∧
      lulls m.engine.setup.hash more = [lull'] ∧
      Shadow (n + discarded [lull]) (n' + discarded [lull']) m₁ m₁' := by
  obtain ⟨stage, idle, hshown, rest, rfl, hbehind⟩ := step.of_lull hlull
  obtain ⟨hidle, heq⟩ := h.idle idle
  rw [← h.alike.setup] at hrejected hshown ⊢
  obtain ⟨more, hrun, hshown', hlulls⟩ := run.lull lull' (h.stage.trans stage) hidle hrejected
  refine ⟨more, _, hrun, hshown'.trans hshown.symm, hlulls, rfl, h.calls, discarded [lull],
    discarded [lull], ?_, ?_⟩
  · rw [hidle]
    exact hbehind
  · -- both have counted all that came before, and then what came in their own lull
    have hcount := congrArg
      (·.discarding (discarded [lull'] + discarded [lull]) (discarded [lull'] + discarded [lull]))
      heq
    simp only [discarding_discarding] at hcount ⊢
    rw [Nat.add_assoc, hcount]
    congr 1 <;> omega

variable {labels : List Label}

theorem Run.setup_eq (run : Run begin labels m) : m.engine.setup = begin.engine.setup := by
  induction run with
  | nil => rfl
  | snoc run step ih => exact step.setup_eq.trans ih

theorem shown_append (hash : KeyedHash) (labels more : List Label) :
    shown hash (labels ++ more) = shown hash labels ++ shown hash more :=
  List.filterMap_append

theorem lulls_append (hash : KeyedHash) (labels more : List Label) :
    lulls hash (labels ++ more) = lulls hash labels ++ lulls hash more :=
  List.filterMap_append

theorem discarded_append (lulls more : List Lull) :
    discarded (lulls ++ more) = discarded lulls + discarded more :=
  List.countP_append ..

/-- For every run there is one with other lulls, which is like it in all that shows. -/
theorem Run.shadow {hash : KeyedHash} (hhash : begin.engine.setup.hash = hash)
    (run : Run begin labels m) (lulls' : List Lull)
    (hlength : lulls'.length = (lulls hash labels).length)
    (hrejected : ∀ lull ∈ lulls', lull.isRejected hash = true) :
    ∃ labels' m', Run begin labels' m' ∧ shown hash labels' = shown hash labels ∧
      lulls hash labels' = lulls' ∧
      Shadow (discarded (lulls hash labels)) (discarded lulls') m m' := by
  induction run generalizing lulls' with
  | nil =>
    cases List.eq_nil_of_length_eq_zero hlength
    exact ⟨[], begin, .nil, rfl, rfl, .refl begin⟩
  | @snoc labels m m₁ label run step ih =>
    have hsame : m.engine.setup.hash = hash := by rw [run.setup_eq, hhash]
    rw [lulls_append] at hlength ⊢
    cases hlull : label.lull? hash with
    | none =>
      have hnone : lulls hash [label] = [] := by
        rw [lulls, List.filterMap_cons_none hlull, List.filterMap_nil]
      rw [hnone, List.append_nil] at hlength ⊢
      obtain ⟨labels', m', run', hshown, hlulls, hshadow⟩ := ih lulls' hlength hrejected
      obtain ⟨more, m₁', hrun, hmore, hlulls', hshadow'⟩ := hshadow.step run' step hlull
      refine ⟨_, m₁', hrun, ?_, ?_, hshadow'⟩
      · rw [shown_append, shown_append, hshown, hmore]
      · rw [lulls_append, hlulls, hlulls', List.append_nil]
    | some lull =>
      have hsome : lulls hash [label] = [lull] := by
        rw [lulls, List.filterMap_cons_some hlull, List.filterMap_nil]
      rw [hsome, List.length_append, List.length_singleton] at hlength
      rcases List.eq_nil_or_concat' lulls' with rfl | ⟨init, lull', rfl⟩
      · cases hlength
      rw [List.length_append, List.length_singleton, Nat.add_right_cancel_iff] at hlength
      rw [List.forall_mem_append, List.forall_mem_singleton] at hrejected
      obtain ⟨labels', m', run', hshown, hlulls, hshadow⟩ := ih init hlength hrejected.1
      subst hsame
      obtain ⟨more, m₁', hrun, hmore, hlulls', hshadow'⟩ :=
        hshadow.lull run' step hlull hrejected.2
      refine ⟨_, m₁', hrun, ?_, ?_, ?_⟩
      · rw [shown_append, shown_append, hshown, hmore]
      · rw [lulls_append, hlulls, hlulls']
      · rw [hsome, discarded_append, discarded_append]
        exact hshadow'

-- ---------------------------------------------------------------------------
-- Both runs
-- ---------------------------------------------------------------------------

/-- **Rejected datagrams are invisible, and one is like another.** A datagram is rejected if
it is no valid frame, whatever the reason and wherever it comes from.

* Take two sequences of datagrams, calls and housekeeping passes that are the same but for
  rejected datagrams, at any points. An engine gives the same replies in both, and ends with
  the same table, the same queue, the same attempts to send and the same counts; only that it
  has received and dropped as many datagrams more as there were rejected.
* Let the network loop and the application interrupt each other in any way. For every run,
  and for any other datagrams that are rejected, or none, in the places where a wait brought
  a rejected datagram or none, there is a run with these that shows the same. At all times
  the engine is the same but for the two counts, and these are exact whenever the loop has
  nothing in hand.
* The receive buffer does no harm: what fits of a datagram is a valid frame exactly if the
  whole datagram is. -/
theorem rejections_are_invisible :
    (∀ (socket : Socket) (p : Progress) (turns turns' : List Turn),
      heeded p.engine.setup.hash turns' = heeded p.engine.setup.hash turns →
      (p.turns socket turns').replies = (p.turns socket turns).replies ∧
      (p.turns socket turns').schedule = (p.turns socket turns).schedule ∧
      AlikeBut (rejections p.engine.setup.hash turns) (rejections p.engine.setup.hash turns')
        (p.turns socket turns).engine (p.turns socket turns').engine) ∧
    (∀ (begin m : Machine) (labels : List Label) (lulls' : List Lull), Run begin labels m →
      lulls'.length = (lulls begin.engine.setup.hash labels).length →
      (∀ lull ∈ lulls', lull.isRejected begin.engine.setup.hash = true) →
      ∃ labels' m', Run begin labels' m' ∧
        shown begin.engine.setup.hash labels' = shown begin.engine.setup.hash labels ∧
        lulls begin.engine.setup.hash labels' = lulls' ∧
        m'.stage = m.stage ∧ m'.calls = m.calls ∧ Alike m.engine m'.engine ∧
        (m.network = .done () → m'.network = .done () ∧
          AlikeBut (discarded (lulls begin.engine.setup.hash labels)) (discarded lulls')
            m.engine m'.engine)) ∧
    (∀ (hash : KeyedHash) (datagram : List UInt8),
      (Frame.decode hash (datagram.take receiveLimit)).isOk =
        (Frame.decode hash datagram).isOk) := by
  refine ⟨?_, ?_, Frame.isOk_decode_take⟩
  · intro socket p turns turns' hheeded
    have heq := p.turns_eq socket turns
    have heq' := p.turns_eq socket turns'
    rw [hheeded] at heq'
    refine ⟨?_, ?_, alikeBut_of_discarding_eq ?_⟩
    · rw [heq, heq']
      rfl
    · rw [heq, heq']
      rfl
    · rw [heq, heq']
      simp only [Progress.discarding, discarding_discarding, Nat.add_comm]
  · intro begin m labels lulls' run hlength hrejected
    obtain ⟨labels', m', run', hshown, hlulls, hshadow⟩ := run.shadow rfl lulls' hlength hrejected
    refine ⟨labels', m', run', hshown, hlulls, hshadow.stage, hshadow.calls, hshadow.alike, ?_⟩
    intro hidle
    obtain ⟨hidle', heq⟩ := hshadow.idle hidle
    exact ⟨hidle', alikeBut_of_discarding_eq heq⟩

/-- Noise from two addresses before a call, against silence; and a wait that ends with noise
instead. -/
theorem rejections_are_invisible_of_noise :
    let e := fresh (.standard 1 5000 ⟨[]⟩) (.anyHost 5000)
    let p : Progress := ⟨.starting 0, e, []⟩
    let socket : Socket := fun _ _ => true
    let quiet := p.turns socket [.pass 0, .call .sendHello]
    let noisy := p.turns socket [.pass 0, .datagram [1, 2, 3] (.anyHost 7) 0,
      .datagram [] (.anyHost 8) 1, .call .sendHello]
    (noisy.replies = [.ok (.sent 1)] ∧ AlikeBut 0 2 quiet.engine noisy.engine) ∧
    ∃ labels' m', Run (.starting e) labels' m' ∧
      lulls e.setup.hash labels' = [some ([1, 2, 3], .anyHost 7, 0)] ∧
      m'.engine.stats.datagramsDropped = 1 := by
  intro e p socket quiet noisy
  constructor
  · have hsame := rejections_are_invisible.1 socket p [.pass 0, .call .sendHello]
      [.pass 0, .datagram [1, 2, 3] (.anyHost 7) 0, .datagram [] (.anyHost 8) 1,
        .call .sendHello] rfl
    exact ⟨hsame.1, hsame.2.2⟩
  · have h1 : Run (.starting e) [_] _ := .snoc .nil (.housekeeping false 0 rfl rfl rfl)
    have h2 := h1.snoc (.network socket rfl)
    have h3 := h2.snoc (.network socket rfl)
    have h4 := h3.snoc (.lapse rfl rfl)
    obtain ⟨labels', m', run', -, hlulls, -, -, -, hidle⟩ := rejections_are_invisible.2.1 _ _ _
      [some ([1, 2, 3], .anyHost 7, 0)] h4 rfl (by decide)
    exact ⟨labels', m', run', hlulls, (hidle rfl).2.dropped.symm⟩

end Engine

end AffineSwarm
