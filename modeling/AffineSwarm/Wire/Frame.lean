import AffineSwarm.Wire.Message
import AffineSwarm.Bytes.BigEndian
import AffineSwarm.Key.Basic

/-!
# Frames

A message travels as one datagram: a kind byte, the fields of that kind in a fixed
layout, and a 32-byte tag over all bytes before it.

* HELLO: `01`, sender (4 bytes);
* MIGRATE: `02`, sender (4), number of digits (1), 32 digit slots, fitness (8);
* ACK: `03`, status (1).

Integers are big-endian. A frame is authenticated before its kind is looked at.
-/

namespace AffineSwarm.Frame

-- ---------------------------------------------------------------------------
-- Layout
-- ---------------------------------------------------------------------------

def helloKind : UInt8 := 1
def migrateKind : UInt8 := 2
def ackKind : UInt8 := 3

def helloLength : Nat := 1 + 4 + tagLength
def migrateLength : Nat := 1 + 4 + 1 + maxGeneLength + 8 + tagLength
def ackLength : Nat := 1 + 1 + tagLength

def maxLength : Nat := migrateLength

def kind : Message → UInt8
  | .hello _ => helloKind
  | .migrate _ _ _ => migrateKind
  | .ack _ => ackKind

def length : Message → Nat
  | .hello _ => helloLength
  | .migrate _ _ _ => migrateLength
  | .ack _ => ackLength

-- ---------------------------------------------------------------------------
-- Writing
-- ---------------------------------------------------------------------------

def fields : Message → List UInt8
  | .hello id => BigEndian.ofNat 4 id.toNat
  | .migrate id gene fitness =>
    BigEndian.ofNat 4 id.toNat ++ UInt8.ofNat gene.length :: gene.padded ++
      BigEndian.ofNat 8 fitness.bits.toNat
  | .ack status => [status]

/-- The authenticated part of a frame. -/
def body (m : Message) : List UInt8 := kind m :: fields m

/-- A body followed by its tag. -/
def sealed (hash : KeyedHash) (body : List UInt8) : List UInt8 := body ++ hash.tag body

def encode (hash : KeyedHash) (m : Message) : List UInt8 := sealed hash (body m)

-- ---------------------------------------------------------------------------
-- Reading
-- ---------------------------------------------------------------------------

/-- What is wrong with the fields of an authentic frame. -/
inductive Defect where
  | trailing (count : Nat)
  | digitCount (count : Nat)
  | padding
  | gene (error : Gene.Error)
  | fitness (value : Binary64)

def Defect.message : Defect → String
  | .trailing count => Decimal.digitText count ++ " trailing bytes"
  | .digitCount count => "digit count " ++ Decimal.digitText count
  | .padding => "non-zero padding after digits"
  | .gene error => (PoolError.invalidGene error.message).message
  | .fitness value => "fitness " ++ Decimal.Layout.plain.text value

def malformed (d : Defect) : WireError := .malformed d.message

/-- The next bytes of a buffer, and the bytes after them. There are none if the read
would run past the end of the buffer. -/
def takeBytes? (width : Nat) (bytes : List UInt8) : Option (List UInt8 × List UInt8) :=
  if width ≤ bytes.length then some (bytes.take width, bytes.drop width) else none

/-- The number spelled by the next bytes, and the bytes after them. -/
def takeNumber? (width : Nat) (bytes : List UInt8) : Option (Nat × List UInt8) :=
  (takeBytes? width bytes).map fun (number, rest) => (BigEndian.toNat number, rest)

/-- Whether a fitness may travel: a number from 0 to 1. -/
def isFitness (x : Binary64) : Bool := Binary64.zero.le x && x.le .one

/-- What reading gives, unless a read runs past the end of the buffer. -/
abbrev Reading := Option (Except WireError Message)

/-- Read the fitness of a migration, its last field. -/
def decodeFitness? (id : Nat) (gene : Gene) (bytes : List UInt8) : Reading := do
  let (bits, _) ← takeNumber? 8 bytes
  let fitness : Binary64 := ⟨UInt64.ofNat bits⟩
  if isFitness fitness then some (.ok (.migrate (UInt32.ofNat id) gene fitness))
  else some (.error (malformed (.fitness fitness)))

/-- Read the digit slots of a migration and what follows them. -/
def decodeSlots? (id count : Nat) (bytes : List UInt8) : Reading := do
  let (slots, bytes) ← takeBytes? maxGeneLength bytes
  if (slots.drop count).any (· != 0) then some (.error (malformed .padding))
  else
    match Gene.ofValues? ((slots.take count).map UInt8.toNat) with
    | .error e => some (.error (malformed (.gene e)))
    | .ok gene => decodeFitness? id gene bytes

/-- Read the fields of a migration. -/
def decodeMigration? (bytes : List UInt8) : Reading := do
  let (id, bytes) ← takeNumber? 4 bytes
  let (count, bytes) ← takeNumber? 1 bytes
  if maxGeneLength < count then some (.error (malformed (.digitCount count)))
  else decodeSlots? id count bytes

def decodeHello? (bytes : List UInt8) : Reading := do
  let (id, _) ← takeNumber? 4 bytes
  some (.ok (.hello (UInt32.ofNat id)))

def decodeAck? (bytes : List UInt8) : Reading := do
  let (status, _) ← takeNumber? 1 bytes
  some (.ok (.ack (UInt8.ofNat status)))

/-- Read fields only if the frame has the length of its kind. -/
def expecting (expected actual : Nat) (read : Reading) : Reading :=
  if actual < expected then some (.error (.truncated actual))
  else if expected < actual then some (.error (malformed (.trailing (actual - expected))))
  else read

/-- Read an authentic body, given the length of its frame. -/
def decodeBody? (frameLength : Nat) : List UInt8 → Reading
  | [] => none
  | k :: bytes =>
    if k = helloKind then expecting helloLength frameLength (decodeHello? bytes)
    else if k = migrateKind then expecting migrateLength frameLength (decodeMigration? bytes)
    else if k = ackKind then expecting ackLength frameLength (decodeAck? bytes)
    else some (.error (.unknownTag k))

/-- Authenticate and read a frame, one read after the other. -/
def decode? (hash : KeyedHash) (frame : List UInt8) : Reading :=
  if frame.length < tagLength + 1 then some (.error (.truncated frame.length))
  else
    let body := frame.take (frame.length - tagLength)
    if hash.verify body (frame.drop (frame.length - tagLength)) then
      decodeBody? frame.length body
    else some (.error .authentication)

-- ---------------------------------------------------------------------------
-- No read runs past the end
-- ---------------------------------------------------------------------------

theorem takeBytes?_of_le {width : Nat} {bytes : List UInt8} (h : width ≤ bytes.length) :
    takeBytes? width bytes = some (bytes.take width, bytes.drop width) := if_pos h

theorem takeNumber?_of_le {width : Nat} {bytes : List UInt8} (h : width ≤ bytes.length) :
    takeNumber? width bytes = some (BigEndian.toNat (bytes.take width), bytes.drop width) := by
  rw [takeNumber?, takeBytes?_of_le h, Option.map_some]

theorem isSome_decodeFitness? (id : Nat) (gene : Gene) {bytes : List UInt8}
    (h : 8 ≤ bytes.length) : (decodeFitness? id gene bytes).isSome := by
  rw [decodeFitness?, takeNumber?_of_le h]
  simp only [Option.bind_eq_bind, Option.bind_some]
  split <;> rfl

theorem isSome_decodeSlots? (id count : Nat) {bytes : List UInt8}
    (h : maxGeneLength + 8 ≤ bytes.length) : (decodeSlots? id count bytes).isSome := by
  rw [decodeSlots?, takeBytes?_of_le (by omega)]
  simp only [Option.bind_eq_bind, Option.bind_some]
  split
  · rfl
  · split
    · rfl
    · exact isSome_decodeFitness? _ _ (by rw [List.length_drop]; omega)

theorem isSome_decodeMigration? {bytes : List UInt8}
    (h : 4 + 1 + maxGeneLength + 8 ≤ bytes.length) : (decodeMigration? bytes).isSome := by
  rw [decodeMigration?, takeNumber?_of_le (by omega)]
  simp only [Option.bind_eq_bind, Option.bind_some]
  rw [takeNumber?_of_le (by rw [List.length_drop]; omega)]
  simp only [Option.bind_some]
  split
  · rfl
  · exact isSome_decodeSlots? _ _ (by simp only [List.length_drop]; omega)

theorem isSome_expecting (expected actual : Nat) {read : Reading}
    (h : actual = expected → read.isSome) : (expecting expected actual read).isSome := by
  rw [expecting]
  split
  · rfl
  · split
    · rfl
    · exact h (by omega)

theorem isSome_decodeBody? {frameLength : Nat} {body : List UInt8} (ne : body ≠ [])
    (h : frameLength = body.length + tagLength) : (decodeBody? frameLength body).isSome := by
  obtain _ | ⟨k, bytes⟩ := body
  · exact absurd rfl ne
  · rw [List.length_cons] at h
    rw [decodeBody?]
    -- the length of the kind leaves enough bytes for all its fields
    split
    · refine isSome_expecting _ _ fun exact => ?_
      rw [decodeHello?, takeNumber?_of_le (by simp only [helloLength] at exact; omega)]
      rfl
    · split
      · refine isSome_expecting _ _ fun exact => ?_
        exact isSome_decodeMigration? (by simp only [migrateLength] at exact; omega)
      · split
        · refine isSome_expecting _ _ fun exact => ?_
          rw [decodeAck?, takeNumber?_of_le (by simp only [ackLength] at exact; omega)]
          rfl
        · rfl

/-- Reading gives a message or an error, whatever the bytes. -/
theorem isSome_decode? (hash : KeyedHash) (frame : List UInt8) : (decode? hash frame).isSome := by
  rw [decode?]
  split
  · rfl
  · simp only
    split
    · refine isSome_decodeBody? ?_ ?_
      · apply List.ne_nil_of_length_pos
        rw [List.length_take]
        omega
      · rw [List.length_take]
        omega
    · rfl

def decode (hash : KeyedHash) (frame : List UInt8) : Except WireError Message :=
  (decode? hash frame).get (isSome_decode? hash frame)

end AffineSwarm.Frame
