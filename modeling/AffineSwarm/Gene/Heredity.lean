import AffineSwarm.Gene.Basic
import AffineSwarm.Random.WordStream

/-!
# Heredity

Genes arise at random or by mutation. A mutation replaces one digit by a different
one: the position is drawn first, then how far the digit moves, one to nine places
round the circle of digits. An empty gene has no digit to replace and draws nothing.
-/

namespace AffineSwarm.Gene

variable {σ : Type} [WordStream σ]

/-- Draw `n` digits, the first one first. -/
def drawDigits : Nat → σ → List (Fin 10) × σ
  | 0, s => ([], s)
  | n + 1, s =>
    let (d, s) := WordStream.below32 10 s
    let (rest, s) := drawDigits n s
    (Fin.ofNat 10 d :: rest, s)

@[simp] theorem length_drawDigits (n : Nat) (s : σ) : (drawDigits n s).1.length = n := by
  induction n generalizing s with
  | zero => rfl
  | succ n ih => simp [drawDigits, ih]

/-- A gene of `n` random digits, of 32 if `n` is more. -/
def random (n : Nat) (s : σ) : Gene × σ :=
  let drawn := drawDigits (min n maxGeneLength) s
  (⟨drawn.1, by simp only [drawn, length_drawDigits]; exact Nat.min_le_right _ _⟩, drawn.2)

/-- The gene with the digit at `position` moved `shift` places on. -/
def shiftDigit (g : Gene) (position : Nat) (shift : Fin 10) : Gene :=
  ⟨g.digits.modify position (· + shift), by simpa using g.length_le⟩

/-- What a mutation did: the position it changed, if any, and the gene it made. -/
structure Mutation where
  position : Option Nat
  gene : Gene

/-- Replace one random digit by a different one. -/
def mutate (g : Gene) (s : σ) : Mutation × σ :=
  if g.isEmpty then (⟨none, g⟩, s)
  else
    let (position, s) := WordStream.below64 g.length s
    let (shift, s) := WordStream.below32 9 s
    (⟨some position, g.shiftDigit position (Fin.ofNat 10 (shift + 1))⟩, s)

end AffineSwarm.Gene
