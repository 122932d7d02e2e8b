/-!
# Bounded FIFO

A queue of fixed capacity in a ring of slots. The queued elements fill the `length`
slots from `head` on, wrapping round at the end. A full queue refuses a further
element and counts it; what is queued is never overwritten. Read oldest first, the
ring is the list `toList`.
-/

namespace AffineSwarm

structure Ring (α : Type) where
  slots : List (Option α)
  /-- The slot of the oldest element. -/
  head : Nat
  length : Nat
  rejected : Nat

namespace Ring

variable {α : Type}

/-- An empty queue. A capacity of zero counts as one. -/
def empty (capacity : Nat) : Ring α := ⟨List.replicate (max capacity 1) none, 0, 0, 0⟩

def capacity (r : Ring α) : Nat := r.slots.length

def isEmpty (r : Ring α) : Bool := r.length = 0

/-- The slot `offset` places after the oldest element. -/
def place (r : Ring α) (offset : Nat) : Nat := (r.head + offset) % r.capacity

/-- Add an element at the end; the flag says whether there was room. -/
def push (r : Ring α) (a : α) : Bool × Ring α :=
  if r.length = r.capacity then (false, { r with rejected := r.rejected + 1 })
  else
    (true, { r with slots := r.slots.set (r.place r.length) (some a), length := r.length + 1 })

def pop (r : Ring α) : Option α × Ring α :=
  if r.length = 0 then (none, r)
  else
    (r.slots.getD r.head none,
      { r with
        slots := r.slots.set r.head none
        head := r.place 1
        length := r.length - 1 })

/-- Take up to `n` elements, oldest first. -/
def popMany : Nat → Ring α → List α × Ring α
  | 0, r => ([], r)
  | n + 1, r =>
    match r.pop with
    | (none, r) => ([], r)
    | (some a, r) =>
      let (rest, r) := popMany n r
      (a :: rest, r)

/-- Take all elements, oldest first. -/
def drain (r : Ring α) : List α × Ring α := popMany r.length r

/-- The queued elements, oldest first. -/
def toList (r : Ring α) : List α :=
  (List.range r.length).filterMap fun offset => (r.slots[r.place offset]?).join

end Ring

end AffineSwarm
