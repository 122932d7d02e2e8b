import AffineSwarm.Engine.Threads

/-!
# Engines on a network that duplicates nothing

Any number of engines at work at once, and the datagrams that are under way between them.
A frame that leaves an engine is one datagram, from the address of that engine to where it
was sent. A datagram is delivered once, to one engine and after any delay, or it is lost.

Which engine gets a datagram, whether one may be lost and what else may happen is not laid
down here: a run is one of occurrences that are all allowed (`Network.Run`), and a theorem
says which ones it allows.
-/

namespace AffineSwarm.Engine

variable {ι : Type}

/-- Bytes under way from one address to another. -/
structure Datagram where
  origin : Address
  target : Address
  bytes : List UInt8
  deriving DecidableEq

/-- The datagram that leaves an engine at an address in this step, if one does. -/
def Label.sent? (origin : Address) : Label → Option Datagram
  | .performed _ ⟨.send frame target, true⟩ => some ⟨origin, target, frame⟩
  | _ => none

/-- Engines and the datagrams that are under way, those that left first at the front. -/
structure Network (ι : Type) where
  machines : ι → Machine
  flight : List Datagram

/-- What happens in one step of a network. -/
inductive Occurrence (ι : Type) where
  /-- An engine takes a step of its own. -/
  | acted (i : ι) (label : Label)
  /-- An engine receives a datagram and begins to handle it. -/
  | delivered (i : ι) (datagram : Datagram) (now : Nat)
  | lost (datagram : Datagram)

namespace Network

/-- Engines that were just started, with nothing under way. -/
def starting (engines : ι → Engine) : Network ι := ⟨fun i => .starting (engines i), []⟩

variable [DecidableEq ι]

/-- The engines after a step of one of them. -/
def set (w : Network ι) (i : ι) (m : Machine) : ι → Machine :=
  fun j => if j = i then m else w.machines j

/-- The steps of a network. The address of an engine is the origin of its datagrams. -/
inductive Step (address : ι → Address) : Network ι → Occurrence ι → Network ι → Prop
  | act {w : Network ι} {i : ι} {label : Label} {m : Machine}
      (step : Engine.Step (w.machines i) label m)
      (own : ∀ datagram origin now, label ≠ .received datagram origin now) :
      Step address w (.acted i label)
        ⟨w.set i m, w.flight ++ (label.sent? (address i)).toList⟩
  | deliver {w : Network ι} {i : ι} {d : Datagram} {before after : List Datagram} {now : Nat}
      {m : Machine} (flight : w.flight = before ++ d :: after)
      (step : Engine.Step (w.machines i) (.received d.bytes d.origin now) m) :
      Step address w (.delivered i d now) ⟨w.set i m, before ++ after⟩
  | lose {w : Network ι} {d : Datagram} {before after : List Datagram}
      (flight : w.flight = before ++ d :: after) :
      Step address w (.lost d) { w with flight := before ++ after }

/-- What may happen on a network, from a state on, and the state after it. -/
inductive Run (address : ι → Address) (allowed : Occurrence ι → Prop) (start : Network ι) :
    List (Occurrence ι) → Network ι → Prop
  | nil : Run address allowed start [] start
  | snoc {occurrences : List (Occurrence ι)} {w w' : Network ι} {o : Occurrence ι}
      (run : Run address allowed start occurrences w) (permitted : allowed o)
      (step : Step address w o w') : Run address allowed start (occurrences ++ [o]) w'

end Network

end AffineSwarm.Engine
