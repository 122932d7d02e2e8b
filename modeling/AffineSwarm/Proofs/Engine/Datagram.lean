import AffineSwarm.Engine.Receive
import AffineSwarm.Proofs.Wire.Canonical

/-!
# What a datagram says

An engine looks at no more than the first bytes of a datagram, which changes nothing:
every frame is shorter than that (`decode_take_receiveLimit`). The event that a datagram
should become is `dueEvent`; the status that a frame acknowledges with is `ackStatus?`.
-/

namespace AffineSwarm

namespace Frame

variable {hash : KeyedHash}

theorem length_encode (m : Message) : (encode hash m).length = length m := by
  rw [encode, sealed, List.length_append, hash.length_tag, length_body]

theorem length_le_maxLength (m : Message) : length m ≤ maxLength := by
  cases m with
  | hello id => exact show helloLength ≤ maxLength by decide
  | migrate id gene fitness => exact Nat.le_refl _
  | ack status => exact show ackLength ≤ maxLength by decide

/-- The first bytes of a datagram are a frame exactly if the datagram is. -/
theorem decode_take_receiveLimit {datagram : List UInt8} {m : Message} :
    decode hash (datagram.take Engine.receiveLimit) = .ok m ↔ decode hash datagram = .ok m := by
  have hlength := length_le_maxLength m
  have hlimit : maxLength < Engine.receiveLimit := by decide
  constructor
  · intro h
    have hframe := congrArg List.length (decode_eq_ok_iff.mp h).1
    rw [List.length_take, length_encode] at hframe
    rwa [List.take_of_length_le (by omega)] at h
  · intro h
    have hframe := congrArg List.length (decode_eq_ok_iff.mp h).1
    rw [length_encode] at hframe
    rwa [List.take_of_length_le (by omega)]

/-- A frame that some message has is read as that message, or as none. -/
theorem eq_of_decode_encode {m m' : Message} (h : decode hash (encode hash m) = .ok m') :
    m = m' := by
  rw [decode_encode_eq] at h
  split at h
  · split at h
    · exact Except.ok.inj h
    · cases h
  · exact Except.ok.inj h

end Frame

namespace Engine

/-- The event that a datagram should become: there is one for every greeting and every
formula of another node. -/
def dueEvent (s : Setup) (datagram : List UInt8) (origin : Address) : Option Event :=
  match Frame.decode s.hash datagram with
  | .ok (.hello id) => if id = s.nodeId then none else some (.hello id origin)
  | .ok (.migrate id gene fitness) =>
    if id = s.nodeId then none else some (.formula id origin ⟨gene, fitness, .zero⟩)
  | _ => none

/-- Handling a message of another node is reacting to it. -/
theorem handle_of_decode {s : Setup} {datagram : List UInt8} {m : Message}
    (hdecode : Frame.decode s.hash datagram = .ok m) (hforeign : m.sender? ≠ some s.nodeId)
    (origin : Address) (now : Nat) :
    handle s datagram origin now =
      .access (.count .datagramsReceived 1) fun _ => react s origin now m := by
  rw [handle, Frame.decode_take_receiveLimit.mpr hdecode]
  simp only [if_neg hforeign]
  rfl

/-- The status in a frame that is an acknowledgement. -/
def ackStatus? (hash : KeyedHash) (frame : List UInt8) : Option UInt8 :=
  match Frame.decode hash frame with
  | .ok (.ack status) => some status
  | _ => none

theorem ackStatus?_ack (hash : KeyedHash) (status : UInt8) :
    ackStatus? hash (Frame.encode hash (.ack status)) = some status := by
  rw [ackStatus?, Frame.decode_encode hash (m := .ack status) trivial]

/-- Only acknowledgements acknowledge. -/
theorem ackStatus?_of_ne {hash : KeyedHash} {m : Message} (h : ∀ status, m ≠ .ack status) :
    ackStatus? hash (Frame.encode hash m) = none := by
  rw [ackStatus?]
  split
  · rename_i status hdecode
    exact absurd (Frame.eq_of_decode_encode hdecode) (h status)
  · rfl

theorem ackStatus?_greeting (s : Setup) : ackStatus? s.hash s.greeting = none :=
  ackStatus?_of_ne nofun

theorem ackStatus?_migration (s : Setup) (f : Formula) :
    ackStatus? s.hash (s.migration f) = none :=
  ackStatus?_of_ne nofun

end Engine

end AffineSwarm
