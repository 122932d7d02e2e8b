import AffineSwarm.Engine.Call
import AffineSwarm.Engine.Schedule

/-!
# The threads of an engine

An engine with the network loop and the application at work at once. The loop goes
round between housekeeping and waiting for a datagram; the application may have any
number of calls in progress. Which thread makes the next access is open, and so is what
the socket answers to a send, when a wait ends, and when a call begins.

A step has a label that says what happened, and a run is the list of its labels. The
state that is shared changes by accesses only (`Step.network`, `Step.application`).
-/

namespace AffineSwarm.Engine

-- ---------------------------------------------------------------------------
-- Calls
-- ---------------------------------------------------------------------------

/-- A call of the application. To wait for an event is to ask for the next one again and
again; who waits for longer than the clock can show does not ask at all. -/
inductive Call where
  | sendHello
  | addStaticNeighbor (address : Address) (id : NodeId) (now : Nat)
  | sendToRandom (rand : UInt64) (formula : Formula)
  | sendToAll (formula : Formula)
  | nextEvent
  | drainEvents
  | stop

namespace Call

/-- Whether the call needs the socket, so that a stopped engine refuses it. -/
def sends : Call → Bool
  | .sendHello | .addStaticNeighbor _ _ _ | .sendToRandom _ _ | .sendToAll _ => true
  | .nextEvent | .drainEvents | .stop => false

/-- The accesses of a call. -/
def routine (s : Setup) : Call → Routine Unit
  | .sendHello => do let _ ← announce s
  | .addStaticNeighbor address id now => do let _ ← introduce s address id now
  | .sendToRandom rand formula => do let _ ← share s rand formula
  | .sendToAll formula => do let _ ← shareWithAll s formula
  | .nextEvent => do let _ ← Routine.of .pop
  | .drainEvents => do let _ ← Routine.of .drain
  | .stop => Routine.of .halt

/-- What is left to do of a call that begins; nothing if it is refused. -/
def begun (e : Engine) (c : Call) : Routine Unit :=
  if c.sends && !e.running then .done () else c.routine e.setup

end Call

-- ---------------------------------------------------------------------------
-- States
-- ---------------------------------------------------------------------------

/-- A call in progress, with what is left to do. -/
structure Pending where
  call : Call
  rest : Routine Unit

/-- Where the network loop goes on when it has nothing in hand. -/
inductive Stage where
  /-- It looks whether to go on, and then does its housekeeping. -/
  | looking
  | waiting
  | ended
  deriving DecidableEq

/-- An engine with its threads. -/
structure Machine where
  engine : Engine
  stage : Stage
  /-- What the network loop has in hand. -/
  network : Routine Unit
  calls : List Pending

def Machine.starting (e : Engine) : Machine := ⟨e, .looking, .done (), []⟩

-- ---------------------------------------------------------------------------
-- Steps
-- ---------------------------------------------------------------------------

/-- The thread that makes an access. -/
inductive Thread where
  | network
  | application (call : Call)

/-- An access that was made, and what it gave. -/
structure Performed where
  access : Access
  answer : access.Answer

/-- What happens in one step. -/
inductive Label where
  | housekeeping (due : Bool) (now : Nat)
  /-- The network loop receives a datagram and begins to handle it. -/
  | received (datagram : List UInt8) (origin : Address) (now : Nat)
  /-- The wait ends without a datagram. -/
  | lapsed
  | ended
  | called (call : Call)
  | returned (call : Call)
  /-- A thread accesses what is shared. -/
  | performed (thread : Thread) (performed : Performed)

/-- The steps of an engine. -/
inductive Step : Machine → Label → Machine → Prop
  | housekeeping {m : Machine} (due : Bool) (now : Nat) (stage : m.stage = .looking)
      (running : m.engine.running = true) (idle : m.network = .done ()) :
      Step m (.housekeeping due now)
        { m with stage := .waiting, network := upkeep m.engine.setup due now }
  | receive {m : Machine} (datagram : List UInt8) (origin : Address) (now : Nat)
      (stage : m.stage = .waiting) (idle : m.network = .done ()) :
      Step m (.received datagram origin now)
        { m with stage := .looking, network := handle m.engine.setup datagram origin now }
  | lapse {m : Machine} (stage : m.stage = .waiting) (idle : m.network = .done ()) :
      Step m .lapsed { m with stage := .looking }
  | finish {m : Machine} (stage : m.stage = .looking) (stopped : m.engine.running = false)
      (idle : m.network = .done ()) : Step m .ended { m with stage := .ended }
  | call {m : Machine} (c : Call) :
      Step m (.called c) { m with calls := m.calls ++ [⟨c, c.begun m.engine⟩] }
  /-- Only a call to stop waits for the network loop. -/
  | leave {m : Machine} {before after : List Pending} {c : Call}
      (calls : m.calls = before ++ ⟨c, .done ()⟩ :: after)
      (join : c = .stop → m.stage = .ended) :
      Step m (.returned c) { m with calls := before ++ after }
  | network {m : Machine} {a : Access} {next : a.Answer → Routine Unit} (socket : Socket)
      (work : m.network = .access a next) :
      Step m (.performed .network ⟨a, (a.perform socket m.engine).1⟩)
        { m with
          engine := (a.perform socket m.engine).2
          network := next (a.perform socket m.engine).1 }
  | application {m : Machine} {before after : List Pending} {c : Call} {a : Access}
      {next : a.Answer → Routine Unit} (socket : Socket)
      (calls : m.calls = before ++ ⟨c, .access a next⟩ :: after) :
      Step m (.performed (.application c) ⟨a, (a.perform socket m.engine).1⟩)
        { m with
          engine := (a.perform socket m.engine).2
          calls := before ++ ⟨c, next (a.perform socket m.engine).1⟩ :: after }

/-- What an engine may do, from a state on, and the state after it. -/
inductive Run (start : Machine) : List Label → Machine → Prop
  | nil : Run start [] start
  | snoc {labels : List Label} {m m' : Machine} {label : Label} (run : Run start labels m)
      (step : Step m label m') : Run start (labels ++ [label]) m'

end AffineSwarm.Engine
