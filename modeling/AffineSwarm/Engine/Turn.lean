import AffineSwarm.Engine.Threads

/-!
# Turns

An engine to which one thing happens after the other: a datagram arrives, the application
makes a call, or the network loop does a pass of its housekeeping. Nothing interrupts a
turn. What the calls give back is kept, in order.
-/

namespace AffineSwarm.Engine

/-- What a call gives back if it is not refused. -/
inductive Reply where
  /-- How many frames left. -/
  | sent (frames : Nat)
  | added
  /-- The neighbor that was drawn, if there is one. -/
  | chosen (id : Option NodeId)
  | next (event : Option Event)
  | drained (events : List Event)
  | stopped
  deriving DecidableEq

/-- The reply of a call that may be refused, and the engine after it. -/
def answered {α : Type} (e : Engine) (reply : α → Reply) :
    Except SwarmError (α × Engine) → Except SwarmError Reply × Engine
  | .ok (result, e) => (.ok (reply result), e)
  | .error error => (.error error, e)

/-- Make a call that nobody interrupts. -/
def Call.make (socket : Socket) (e : Engine) : Call → Except SwarmError Reply × Engine
  | .sendHello => e.answered .sent (e.sendHello socket)
  | .addStaticNeighbor address id now =>
    e.answered (fun () => .added)
      ((e.addStaticNeighbor socket address id now).map fun e => ((), e))
  | .sendToRandom rand formula => e.answered .chosen (e.sendToRandom socket rand formula)
  | .sendToAll formula => e.answered .sent (e.sendToAll socket formula)
  | .nextEvent => e.answered .next (.ok e.nextEvent)
  | .drainEvents => e.answered .drained (.ok e.drainEvents)
  | .stop => (.ok .stopped, e.stop)

inductive Turn where
  | datagram (bytes : List UInt8) (origin : Address) (now : Nat)
  | pass (now : Nat)
  | call (call : Call)

/-- How far an engine has come. -/
structure Progress where
  schedule : Schedule
  engine : Engine
  replies : List (Except SwarmError Reply)

namespace Progress

def turn (socket : Socket) (p : Progress) : Turn → Progress
  | .datagram bytes origin now =>
    { p with engine := p.engine.handleDatagram socket bytes origin now }
  | .pass now =>
    let (schedule, engine) := housekeeping socket now p.schedule p.engine
    { p with schedule, engine }
  | .call c =>
    let (reply, engine) := c.make socket p.engine
    { p with engine, replies := p.replies ++ [reply] }

def turns (socket : Socket) (p : Progress) (turns : List Turn) : Progress :=
  turns.foldl (·.turn socket) p

end Progress

end AffineSwarm.Engine
