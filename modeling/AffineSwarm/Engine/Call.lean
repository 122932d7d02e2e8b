import AffineSwarm.Engine.Sending

/-!
# Calls of the application

The application sends and takes events. After `stop` the socket is closed: calls that
send are refused, while events that are still queued can be taken.
-/

namespace AffineSwarm.Engine

open Routine (of)

-- ---------------------------------------------------------------------------
-- Routines
-- ---------------------------------------------------------------------------

/-- Enter a neighbor that broadcasts cannot reach, and greet it. -/
def introduce (s : Setup) (address : Address) (id : NodeId) (now : Nat) :
    Routine (Except SwarmError Unit) := do
  if id = s.nodeId then
    return .error (.config ("static neighbor " ++ address.text ++ " uses this node's id"))
  else
    let outcome ← of (.upsert id address now)
    match outcome with
    | .error error => return .error (.neighbor error)
    | .ok _ =>
      transmitCounted .hellosSent s.greeting address id
      return .ok ()

/-- Migrate a formula to the neighbor at place `rand` modulo the size of the table.
Returns that neighbor, also if the send failed; there is none in an empty table. -/
def share (s : Setup) (rand : UInt64) (formula : Formula) : Routine (Option NodeId) := do
  let neighbor ← of (.pick rand)
  match neighbor with
  | none => return none
  | some n =>
    transmitCounted .formulasSent (s.migration formula) n.address n.id
    return some n.id

/-- Migrate a formula to every neighbor and then to the broadcast address. Returns how
many frames left. -/
def shareWithAll (s : Setup) (formula : Formula) : Routine Nat := do
  let neighbors ← of .snapshot
  let sent ← transmitAll (s.migration formula) (targets neighbors)
  let broadcast ← transmitAll (s.migration formula) s.broadcastTargets
  of (.count .formulasSent (sent + broadcast))
  return sent + broadcast

-- ---------------------------------------------------------------------------
-- Calls without interruption
-- ---------------------------------------------------------------------------

/-- Refuse a call on a stopped engine. -/
def whileRunning {α : Type} (e : Engine) (call : Except SwarmError α) : Except SwarmError α :=
  if e.running then call else .error .notRunning

/-- Greet everybody now. Returns how many frames left. -/
def sendHello (socket : Socket) (e : Engine) : Except SwarmError (Nat × Engine) :=
  e.whileRunning (.ok ((announce e.setup).run socket e))

def addStaticNeighbor (socket : Socket) (address : Address) (id : NodeId) (now : Nat)
    (e : Engine) : Except SwarmError Engine :=
  e.whileRunning <|
    match (introduce e.setup address id now).run socket e with
    | (.error error, _) => .error error
    | (.ok (), e) => .ok e

def sendToRandom (socket : Socket) (rand : UInt64) (formula : Formula) (e : Engine) :
    Except SwarmError (Option NodeId × Engine) :=
  e.whileRunning (.ok ((share e.setup rand formula).run socket e))

def sendToAll (socket : Socket) (formula : Formula) (e : Engine) :
    Except SwarmError (Nat × Engine) :=
  e.whileRunning (.ok ((shareWithAll e.setup formula).run socket e))

def nextEvent (e : Engine) : Option Event × Engine :=
  let (event, events) := e.events.pop
  (event, { e with events })

def drainEvents (e : Engine) : List Event × Engine :=
  let (taken, events) := e.events.drain
  (taken, { e with events })

def stop (e : Engine) : Engine := { e with running := false }

end AffineSwarm.Engine
