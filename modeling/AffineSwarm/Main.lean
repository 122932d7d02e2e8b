import AffineSwarm.Ledger.Trail
import AffineSwarm.Node.Basic
import AffineSwarm.Engine.Schedule
import AffineSwarm.Settings.Load
import AffineSwarm.Version
import Std.Async.Signal
import Std.Async.UDP
import Std.Internal.UV.System

/-!
# The node program

The command line takes one argument, the name of a settings file, and none is fine too.
The program loads its configuration, opens its socket and runs one node until it is
interrupted, when it shows the best formula.

All decisions are the library's. What is left to do here is to look at the clocks, to
receive, and to send: a step of the library says which sends it makes if every send so
far ended as the socket says (`settled`).
-/

namespace AffineSwarm.Program

open Std (Net.SocketAddress)
open Std.Async

-- ---------------------------------------------------------------------------
-- The host
-- ---------------------------------------------------------------------------

/-- An address as the host takes it. -/
def toHost : Address → Net.SocketAddress
  | .v4 host port => .v4 ⟨⟨#v[host.a, host.b, host.c, host.d]⟩, port⟩
  | .v6 host port _ => .v6 ⟨⟨host⟩, port⟩

/-- An address as the host gives it. -/
def ofHost : Net.SocketAddress → Address
  | .v4 ⟨⟨octets⟩, port⟩ => .v4 ⟨octets[0], octets[1], octets[2], octets[3]⟩ port
  | .v6 ⟨⟨segments⟩, port⟩ => .v6 segments port 0

/-- What a call gives, or the reason why it is refused. -/
def answered {α : Type} (call : IO α) : IO (Except String α) := do
  try return .ok (← call)
  catch e => return .error (toString e)

def openSocket (config : EngineConfig) : IO (UDP.Socket × Engine.Opening) := do
  let socket ← UDP.Socket.mk
  let bound ← answered (socket.bind (toHost config.bindAddress))
  let broadcasting ←
    if config.broadcast.isSome then answered (socket.setBroadcast true) else pure (.ok ())
  let localAddress ← answered (ofHost <$> socket.getSockName)
  return (socket, ⟨bound, .ok (), broadcasting, localAddress, .ok ()⟩)

/-- Make a send. Returns whether it succeeded. -/
def send (socket : UDP.Socket) (attempt : Attempt) : IO Bool := do
  let bytes := ByteArray.mk attempt.frame.toArray
  try
    (socket.send bytes (some (toHost attempt.target))).block
    return true
  catch _ => return false

def wallTime : IO WallTime := do
  let now ← Std.Time.Timestamp.now
  return Int64.ofInt now.toMillisecondsSinceUnixEpoch.val

-- ---------------------------------------------------------------------------
-- Steps
-- ---------------------------------------------------------------------------

/-- Run a step and make its sends. The step is run on the outcomes known so far, a send
not made yet counting as a success; when a send fails, the step is run again with that
outcome. -/
partial def settled {α : Type} (socket : UDP.Socket) (first : Nat) (outbox : α → List Attempt)
    (step : Socket → α) (known : Array Bool) : IO α := do
  let result := step fun n _ => known.getD (n - first) true
  let mut known := known
  for attempt in (outbox result).drop known.size do
    let succeeded ← send socket attempt
    known := known.push succeeded
    if !succeeded then return ← settled socket first outbox step known
  return result

/-- What the program keeps between two steps. -/
structure State where
  node : Node AuditTrail
  schedule : Engine.Schedule
  /-- When the next step of the application is due. -/
  nextStep : Nat

/-- Show what the audit trail has to show. -/
def showNotices (node : Node AuditTrail) : IO (Node AuditTrail) := do
  match node.audit with
  | none => return node
  | some trail =>
    let (notices, trail) := trail.collectNotices
    for notice in notices do
      IO.println ("audit " ++ notice.eventType ++ " " ++ notice.payload)
    return { node with audit := some trail }

/-- Let the network loop react. -/
def wake (socket : UDP.Socket) (wakeup : Engine.Wakeup) (s : State) : IO State := do
  let now ← IO.monoNanosNow
  let (schedule, engine) ← settled socket s.node.engine.attempts (·.2.outbox)
    (fun host => Engine.wake host now wakeup s.schedule s.node.engine) #[]
  return { s with schedule, node := { s.node with engine := engine.collectOutbox.2 } }

/-- Let the application step if it is time. -/
def stepIfDue (socket : UDP.Socket) (config : NodeConfig) (s : State) : IO State := do
  let now ← IO.monoNanosNow
  if now < s.nextStep then return s
  let time ← wallTime
  let (report, node) ← settled socket s.node.engine.attempts (·.2.engine.outbox)
    (fun host => s.node.step host (fun _ => time) config.generationsPerStep.toNat) #[]
  match report with
  | .ok _ => pure ()
  | .error e => IO.eprintln ("Step failed: " ++ e.message)
  let node ← showNotices { node with engine := node.engine.collectOutbox.2 }
  return { s with
    node
    nextStep := s.nextStep + Duration.ofMillis config.shareIntervalMillis.toNat }

-- ---------------------------------------------------------------------------
-- The loop
-- ---------------------------------------------------------------------------

abbrev Receive := AsyncTask (ByteArray × Option Net.SocketAddress)

def receive (socket : UDP.Socket) : IO Receive := (socket.recv Engine.receiveLimit.toUInt64).toIO

/-- What a finished receive brought. -/
def wakeupOf (receiving : Receive) : IO Engine.Wakeup := do
  match ← answered receiving.block with
  | .ok (bytes, some origin) => return .datagram bytes.toList (ofHost origin)
  | _ => return .silence

/-- Milliseconds between two looks at the host. -/
def pause : UInt32 := 1

/-- Run the node until it is interrupted. -/
partial def loop (socket : UDP.Socket) (interrupt : AsyncTask Int) (config : NodeConfig)
    (receiving : Receive) (s : State) : IO State := do
  if ← IO.hasFinished interrupt then return s
  if ← IO.hasFinished receiving then
    let s ← wake socket (← wakeupOf receiving) s
    loop socket interrupt config (← receive socket) (← stepIfDue socket config s)
  else
    IO.sleep pause
    let s ← wake socket .silence s
    loop socket interrupt config receiving (← stepIfDue socket config s)

/-- Run a node of a configuration. -/
def runNode (config : NodeConfig) (engineConfig : EngineConfig) : IO UInt32 := do
  let (socket, opening) ← openSocket engineConfig
  let now ← IO.monoNanosNow
  let outbox (started : Except SwarmError (Node AuditTrail)) : List Attempt :=
    match started with
    | .ok node => node.engine.outbox
    | .error _ => []
  match ← settled socket 0 outbox
      (fun host => Node.start host now (fun _ => opening) (.console []) config) #[] with
  | .error e =>
    IO.eprintln ("Error: starting node: " ++ e.message)
    return 1
  | .ok node =>
    IO.println ("Node listening on " ++ node.engine.setup.localAddress.text)
    let node := { node with engine := node.engine.collectOutbox.2 }
    let interrupt ← (← Signal.Waiter.mk .sigint false).wait
    let s ← loop socket interrupt config (← receive socket) ⟨node, .starting now, now⟩
    let best := s.node.pool.best
    IO.println ("Swarm node stopped, best gene " ++ best.gene.text ++ ", fitness " ++
      Decimal.Layout.plain.text best.fitness)
    return 0

-- ---------------------------------------------------------------------------
-- The command line
-- ---------------------------------------------------------------------------

/-- The content of a file, if it can be read. -/
def content? (name : String) : IO (Option String) := do
  try return some (← IO.FS.readFile name)
  catch _ => return none

/-- The part of a file's name after its last point. -/
def extension (name : String) : String :=
  match (name.splitOn "/").getLast?.map (·.splitOn ".") with
  | some (_ :: rest) => rest.getLast?.getD ""
  | _ => ""

def run (arguments : List String) : IO UInt32 := do
  IO.println ("Starting swarm node v" ++ version)
  let file ← arguments.head?.mapM fun name => return ⟨extension name, ← content? name⟩
  let environment ← Std.Internal.UV.System.osEnviron
  match NodeConfig.load file (← content? ".env") environment.toList with
  | .error .unreadable =>
    IO.eprintln "Error: loading configuration: the settings cannot be read"
    return 1
  | .error (.invalid e) =>
    IO.eprintln ("Error: loading configuration: " ++ e.message)
    return 1
  | .ok config =>
    match config.engineConfig with
    | .error e =>
      IO.eprintln ("Error: starting node: " ++ e.message)
      return 1
    | .ok engineConfig => runNode config engineConfig

end AffineSwarm.Program

def main (arguments : List String) : IO UInt32 := AffineSwarm.Program.run arguments
