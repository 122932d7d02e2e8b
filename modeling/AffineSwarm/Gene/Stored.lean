import AffineSwarm.Gene.Heredity
import AffineSwarm.Gene.Text

/-!
# Genes in place

A gene is stored in place: 32 slots of one byte each, and the number of those that hold its
digits. Two stored genes are compared slot by slot, so what stands in the other slots counts too.

Genes are made and mutated by writing single slots and adding single bytes. An operation that
leaves the slots, or adds more than a byte can hold, breaks off and gives nothing.
-/

namespace AffineSwarm.Gene

@[ext] structure Stored where
  slots : Vector UInt8 maxGeneLength
  count : UInt8
  deriving DecidableEq

/-- A gene in its slots. -/
def stored (g : Gene) : Stored := ⟨⟨g.padded.toArray, by simp⟩, UInt8.ofNat g.length⟩

namespace Stored

-- ---------------------------------------------------------------------------
-- Looking
-- ---------------------------------------------------------------------------

/-- The slots that hold digits. -/
def digits (p : Stored) : List UInt8 := p.slots.toList.take p.count.toNat

/-- The slots after the digits. -/
def padding (p : Stored) : List UInt8 := p.slots.toList.drop p.count.toNat

/-- Compare all slots, and the numbers of digits. -/
def same (p q : Stored) : Bool := p.slots == q.slots && p.count == q.count

-- ---------------------------------------------------------------------------
-- Writing
-- ---------------------------------------------------------------------------

/-- Slots for so many digits, all of them zero. -/
def blank (count : Nat) : Stored := ⟨Vector.replicate maxGeneLength 0, UInt8.ofNat count⟩

/-- Write one slot. -/
def put? (p : Stored) (position : Nat) (value : UInt8) : Option Stored :=
  if h : position < maxGeneLength then some { p with slots := p.slots.set position value h }
  else none

/-- Write values into the slots from a position on. -/
def putAll? : List UInt8 → Nat → Stored → Option Stored
  | [], _, p => some p
  | value :: rest, position, p => p.put? position value >>= putAll? rest (position + 1)

/-- The sum of two bytes, if it is a byte. -/
def sum? (a b : UInt8) : Option UInt8 :=
  if a.toNat + b.toNat < UInt8.size then some (a + b) else none

/-- Move the digit in a slot on, round the circle of ten digits. -/
def move? (p : Stored) (position : Nat) (shift : UInt8) : Option Stored := do
  let digit ← p.slots[position]?
  let moved ← sum? digit shift
  p.put? position (moved % 10)

-- ---------------------------------------------------------------------------
-- Making
-- ---------------------------------------------------------------------------

/-- Store digit values. Their number is checked first; then the first one above nine is
reported. -/
def ofValues? (values : List UInt8) : Option (Except Error Stored) :=
  if maxGeneLength < values.length then some (.error (.tooLong values.length))
  else
    match values.find? (9 < ·) with
    | some bad => some (.error (.badDigit bad.toNat))
    | none => (putAll? values 0 (blank values.length)).map .ok

/-- Store the digits of a text. -/
def ofText? (text : String) : Option (Except Error Stored) :=
  match digitsOfChars text.toList with
  | .error e => some (.error e)
  | .ok digits => ofValues? (digits.map fun d => UInt8.ofNat d.val)

variable {σ : Type} [WordStream σ]

/-- Draw a digit into each of the next `n` slots. -/
def drawAll? : Nat → Nat → Stored → σ → Option (Stored × σ)
  | 0, _, p, s => some (p, s)
  | n + 1, position, p, s =>
    let (d, s) := WordStream.below32 10 s
    p.put? position (UInt8.ofNat d) >>= fun p => drawAll? n (position + 1) p s

/-- Store `n` random digits, 32 if `n` is more. -/
def random? (n : Nat) (s : σ) : Option (Stored × σ) :=
  drawAll? (min n maxGeneLength) 0 (blank (min n maxGeneLength)) s

/-- Replace one random digit by a different one. Returns its position, if there is a digit. -/
def mutate? (p : Stored) (s : σ) : Option (Option Nat × Stored × σ) :=
  if p.count = 0 then some (none, p, s)
  else
    let (position, s) := WordStream.below64 p.count.toNat s
    let (shift, s) := WordStream.below32 9 s
    (p.move? position (UInt8.ofNat (shift + 1))).map fun q => (some position, q, s)

end Stored

end AffineSwarm.Gene
