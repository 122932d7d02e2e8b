import AffineSwarm.Engine.Threads

/-!
# Engines on a hostile network

Any number of engines at work at once, with one history of all their steps. Between them
is a network that nobody controls: it may lose, delay, reorder, repeat and redirect
frames, claim any origin for them, and make up datagrams of its own. The one thing it
cannot do is to compute tags. So a datagram that carries the right tag has the bytes of a
frame that some engine sent before.
-/

namespace AffineSwarm.Engine

variable {ι : Type}

/-- The steps of all engines, the first one first, each with the engine that took it. -/
abbrev History (ι : Type) := List (ι × Label)

/-- An engine has sent a frame: the socket has taken it. -/
def History.Sent (history : History ι) (i : ι) (frame : List UInt8) : Prop :=
  ∃ thread target, (i, .performed thread ⟨.send frame target, true⟩) ∈ history

/-- An application has passed a formula to its engine, to be sent to others. -/
def History.Passed (history : History ι) (i : ι) (f : Formula) : Prop :=
  (∃ rand, (i, .called (.sendToRandom rand f)) ∈ history) ∨ (i, .called (.sendToAll f)) ∈ history

/-- What the network may deliver, to any engine and with any origin. -/
inductive Deliverable (hash : KeyedHash) (history : History ι) (datagram : List UInt8) : Prop
  /-- A copy of a frame. -/
  | copied {i : ι} (sent : history.Sent i datagram)
  /-- Bytes from elsewhere. If they end with the tag of the bytes before it, then these
  are the bytes of a frame. -/
  | injected (known : ∀ body, datagram = Frame.sealed hash body → ∃ i, history.Sent i datagram)

/-- Engines with the history of their steps. -/
structure Swarm (ι : Type) where
  machines : ι → Machine
  history : History ι

namespace Swarm

/-- Engines that were just started. -/
def starting (engines : ι → Engine) : Swarm ι := ⟨fun i => .starting (engines i), []⟩

/-- The steps of one engine. -/
def labels [DecidableEq ι] (w : Swarm ι) (i : ι) : List Label :=
  w.history.filterMap fun (j, label) => if j = i then some label else none

/-- The swarm after a step of one engine. -/
def after [DecidableEq ι] (w : Swarm ι) (i : ι) (label : Label) (m : Machine) : Swarm ι :=
  ⟨fun j => if j = i then m else w.machines j, w.history ++ [(i, label)]⟩

/-- The states that a swarm may reach: an engine takes a step, and if it receives a
datagram then one that the network may deliver. -/
inductive Reachable [DecidableEq ι] (hash : KeyedHash) (start : Swarm ι) : Swarm ι → Prop
  | refl : Reachable hash start start
  | step {w : Swarm ι} {i : ι} {label : Label} {m : Machine} (reached : Reachable hash start w)
      (step : Step (w.machines i) label m)
      (network : ∀ datagram origin now, label = .received datagram origin now →
        Deliverable hash w.history datagram) :
      Reachable hash start (w.after i label m)

end Swarm

end AffineSwarm.Engine
