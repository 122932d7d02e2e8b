import AffineSwarm.Engine.Threads

/-!
# An engine and the clock of its host

The clock of the host stands still while threads work. It goes on while the network loop
waits for a datagram, or sleeps after a receive has failed. Datagrams arrive at any time and
are received in the order of their arrival.

A poll is one wait of the loop for one datagram: a first receive, and more of them until a
datagram comes, the deadline has passed, or the engine is stopped. The loop looks at the
deadline after each receive only. A receive takes no time if a datagram has arrived, and one
slice at most if none does; after a failure the loop sleeps for a slice, or until the deadline
if that is sooner.

When datagrams arrive and receives fail is open, and so is how long a receive takes and what
the application does meanwhile.
-/

namespace AffineSwarm.Engine

-- ---------------------------------------------------------------------------
-- States
-- ---------------------------------------------------------------------------

/-- What the network loop waits for. -/
inductive Wait where
  /-- It is at work, or about to be. -/
  | none
  /-- For a datagram, until then. -/
  | receiving (limit : Nat)
  /-- It sleeps until then. -/
  | asleep (limit : Nat)
  deriving DecidableEq

/-- Bytes that have arrived, and where from. -/
abbrev Arrival := List UInt8 × Address

/-- An engine on its host. -/
structure Host where
  machine : Machine
  clock : Nat
  schedule : Schedule
  wait : Wait
  /-- What has arrived and was not received yet, what came first at the front. -/
  inbox : List Arrival

namespace Host

/-- A greeting is due at once. -/
def starting (e : Engine) (now : Nat) : Host := ⟨.starting e, now, .starting now, .none, []⟩

def setup (host : Host) : Setup := host.machine.engine.setup

/-- Whether a periodic greeting is due. -/
def due (host : Host) : Bool := host.schedule.nextHello ≤ host.clock

/-- The schedule from a pass of housekeeping on. -/
def passed (host : Host) : Schedule :=
  { host.schedule with
    nextHello := if host.schedule.nextHello ≤ host.clock then
        host.clock + host.setup.helloInterval
      else host.schedule.nextHello }

/-- The schedule from the begin of a poll on. -/
def polling (host : Host) : Schedule :=
  { host.schedule with
    deadline := host.clock +
      min host.setup.pollTimeout (host.schedule.nextHello - host.clock) }

/-- How long the loop sleeps after a failure. -/
def nap (host : Host) : Nat := min receiveSlice (host.schedule.deadline - host.clock)

/-- Nothing has arrived in a receive, or the loop sleeps. -/
def WaitsUntil (host : Host) (limit : Nat) : Prop :=
  (host.wait = .receiving limit ∧ host.inbox = []) ∨ host.wait = .asleep limit

/-- A receive has ended without a datagram, or the sleep after a failure is over. -/
def IsSilent (host : Host) : Prop :=
  (∃ limit, host.wait = .receiving limit ∧ host.inbox = []) ∨ host.wait = .asleep host.clock

end Host

-- ---------------------------------------------------------------------------
-- Steps
-- ---------------------------------------------------------------------------

/-- What happens in one step of a host. -/
inductive Happening where
  /-- The engine takes a step. -/
  | acted (label : Label)
  | arrived (arrival : Arrival)
  | elapsed (now : Nat)
  /-- The network loop begins a poll. -/
  | polled
  /-- The network loop receives once more in a poll. -/
  | retried
  /-- A receive fails. -/
  | failed

/-- If the access carries a time, the clock shows it. -/
def Access.ReadsClock (now : Nat) : Access → Prop
  | .upsert _ _ time | .touch _ time | .evict time _ => time = now
  | _ => True

/-- A step for which it does not matter what the network loop waits for. A call that records a
node reads the clock when it does so. -/
def Label.IsTimeless (now : Nat) : Label → Prop
  | .housekeeping _ _ | .received _ _ _ | .lapsed => False
  | .performed (.application _) ⟨a, _⟩ => a.ReadsClock now
  | _ => True

namespace Host

/-- The steps of an engine on its host. -/
inductive Step : Host → Happening → Host → Prop
  | work {host : Host} {label : Label} {m : Machine} (step : Engine.Step host.machine label m)
      (timeless : label.IsTimeless host.clock) :
      Step host (.acted label) { host with machine := m }
  | pass {host : Host} {m : Machine}
      (step : Engine.Step host.machine (.housekeeping host.due host.clock) m) :
      Step host (.acted (.housekeeping host.due host.clock))
        { host with machine := m, schedule := host.passed }
  | poll {host : Host} (stage : host.machine.stage = .waiting)
      (idle : host.machine.network = .done ()) (wait : host.wait = .none) :
      Step host .polled
        { host with schedule := host.polling, wait := .receiving (host.clock + receiveSlice) }
  | arrive {host : Host} (arrival : Arrival) :
      Step host (.arrived arrival) { host with inbox := host.inbox ++ [arrival] }
  | receive {host : Host} {limit : Nat} {arrival : Arrival} {rest : List Arrival} {m : Machine}
      (wait : host.wait = .receiving limit) (inbox : host.inbox = arrival :: rest)
      (step : Engine.Step host.machine (.received arrival.1 arrival.2 host.clock) m) :
      Step host (.acted (.received arrival.1 arrival.2 host.clock))
        { host with machine := m, wait := .none, inbox := rest }
  | fail {host : Host} {limit : Nat} (wait : host.wait = .receiving limit) :
      Step host .failed { host with wait := .asleep (host.clock + host.nap) }
  | elapse {host : Host} {limit now : Nat} (wait : host.WaitsUntil limit)
      (later : host.clock < now) (within : now ≤ limit) :
      Step host (.elapsed now) { host with clock := now }
  | retry {host : Host} (silent : host.IsSilent) (running : host.machine.engine.running = true)
      (early : host.clock < host.schedule.deadline) :
      Step host .retried { host with wait := .receiving (host.clock + receiveSlice) }
  | lapse {host : Host} {m : Machine} (silent : host.IsSilent)
      (expired : host.machine.engine.running = false ∨ host.schedule.deadline ≤ host.clock)
      (step : Engine.Step host.machine .lapsed m) :
      Step host (.acted .lapsed) { host with machine := m, wait := .none }

/-- What may happen on a host, from a state on, and the state after it. -/
inductive Run (start : Host) : List Happening → Host → Prop
  | nil : Run start [] start
  | snoc {happenings : List Happening} {host host' : Host} {happening : Happening}
      (run : Run start happenings host) (step : Step host happening host') :
      Run start (happenings ++ [happening]) host'

end Host

end AffineSwarm.Engine
