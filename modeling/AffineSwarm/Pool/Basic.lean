import AffineSwarm.Fitness
import AffineSwarm.Gene.Heredity
import AffineSwarm.Pool.Config

/-!
# The formula pool

A pool is a population of formulas of fixed size, the examples they are scored
against, and the random stream that all its draws come from. Two tie rules hold
everywhere: of equally fit formulas the first is the best and the last is the worst.
-/

namespace AffineSwarm

/-- The best of a non-empty list with its index; of equally fit formulas the first. -/
def firstBest (first : Formula) (rest : List Formula) : Nat × Formula :=
  go 1 (0, first) rest
where
  go (index : Nat) (best : Nat × Formula) : List Formula → Nat × Formula
    | [] => best
    | f :: rest => go (index + 1) (if best.2.fitness.lt f.fitness then (index, f) else best) rest

/-- The worst of a non-empty list with its index; of equally fit formulas the last. -/
def lastWorst (first : Formula) (rest : List Formula) : Nat × Formula :=
  go 1 (0, first) rest
where
  go (index : Nat) (worst : Nat × Formula) : List Formula → Nat × Formula
    | [] => worst
    | f :: rest => go (index + 1) (if f.fitness.le worst.2.fitness then (index, f) else worst) rest

/-- A population with its examples and its random stream. -/
structure Pool (σ : Type) where
  config : PoolConfig
  formulas : List Formula
  examples : ExampleRing
  stream : σ
  generation : Nat
  formulas_ne : formulas ≠ []

namespace Pool

variable {σ : Type}

-- ---------------------------------------------------------------------------
-- Views
-- ---------------------------------------------------------------------------

def size (p : Pool σ) : Nat := p.formulas.length

def bestEntry (p : Pool σ) : Nat × Formula :=
  firstBest (p.formulas.head p.formulas_ne) p.formulas.tail

def worstEntry (p : Pool σ) : Nat × Formula :=
  lastWorst (p.formulas.head p.formulas_ne) p.formulas.tail

def bestIndex (p : Pool σ) : Nat := p.bestEntry.1

def best (p : Pool σ) : Formula := p.bestEntry.2

/-- The first slot that holds exactly this gene. -/
def position (p : Pool σ) (gene : Gene) : Option Nat :=
  p.formulas.findIdx? fun f => decide (f.gene = gene)

/-- The first formula with exactly this gene, with its slot. -/
def lookup (p : Pool σ) (gene : Gene) : Option (Nat × Formula) := do
  let slot ← p.position gene
  let f ← p.formulas[slot]?
  return (slot, f)

-- ---------------------------------------------------------------------------
-- Seeding
-- ---------------------------------------------------------------------------

/-- Draw `count` unscored formulas, the first one first. -/
def drawFormulas [WordStream σ] (geneLength : Nat) : Nat → σ → List Formula × σ
  | 0, s => ([], s)
  | count + 1, s =>
    let (gene, s) := Gene.random geneLength s
    let (rest, s) := drawFormulas geneLength count s
    (.ofGene gene :: rest, s)

@[simp] theorem length_drawFormulas [WordStream σ] (geneLength count : Nat) (s : σ) :
    (drawFormulas geneLength count s).1.length = count := by
  induction count generalizing s with
  | zero => rfl
  | succ count ih => simp [drawFormulas, ih]

/-- A seeded pool. The configuration is checked first. -/
def ofConfig? [WordStream σ] (config : PoolConfig) (s : σ) : Except PoolError (Pool σ) :=
  match h : config.validate with
  | .error e => .error e
  | .ok () =>
    let drawn := drawFormulas config.geneLength config.population s
    .ok ⟨config, drawn.1, .empty, drawn.2, 0, by
      apply List.ne_nil_of_length_pos
      simpa [drawn] using PoolConfig.population_pos_of_validate h⟩

/-- The pool of the standard configuration. -/
def standard [WordStream σ] (s : σ) : Pool σ :=
  let drawn := drawFormulas PoolConfig.standard.geneLength PoolConfig.standard.population s
  ⟨.standard, drawn.1, .empty, drawn.2, 0, by
    apply List.ne_nil_of_length_pos
    simp [drawn, PoolConfig.standard]⟩

-- ---------------------------------------------------------------------------
-- Examples and feedback
-- ---------------------------------------------------------------------------

/-- Add an example at the end. -/
def addExample (p : Pool σ) (e : Example) : Except PoolError (Pool σ) :=
  match p.examples.push? e with
  | some examples => .ok { p with examples }
  | none => .error (.examplesFull maxExamples)

def clearExamples (p : Pool σ) : Pool σ := { p with examples := .empty }

/-- The pool with the formula in one slot exchanged. -/
def setFormula (p : Pool σ) (slot : Nat) (f : Formula) : Pool σ :=
  { p with
    formulas := p.formulas.set slot f
    formulas_ne := by simpa using p.formulas_ne }

/-- A formula after feedback: the feedback accumulates within `[-1, 1]` and shifts
the fitness at once. -/
def shifted (f : Formula) (delta : Binary64) : Formula :=
  { f with
    feedback := (f.feedback.add delta).clamp .minusOne .one
    fitness := (f.fitness.add delta).clampUnit }

/-- Give feedback to the first formula with exactly this gene. -/
def feedback (p : Pool σ) (gene : Gene) (delta : Binary64) :
    Except PoolError (Formula × Pool σ) :=
  if !delta.isFinite then .error (.invalidFeedback delta)
  else
    match p.lookup gene with
    | none => .error .notFound
    | some (slot, f) => .ok (shifted f delta, p.setFormula slot (shifted f delta))

-- ---------------------------------------------------------------------------
-- Immigration
-- ---------------------------------------------------------------------------

inductive Absorbed where
  /-- It took the slot of the worst formula. -/
  | replaced (slot : Nat)
  /-- Its gene already lives in this slot, and nothing changed. -/
  | alreadyPresent (slot : Nat)
  deriving DecidableEq, Repr

/-- Take in a formula: a gene that is already present changes nothing, any other
replaces the worst formula. -/
def absorb (p : Pool σ) (f : Formula) : Absorbed × Pool σ :=
  match p.position f.gene with
  | some slot => (.alreadyPresent slot, p)
  | none =>
    let slot := p.worstEntry.1
    (.replaced slot, p.setFormula slot (.withFitness f.gene f.fitness))

end Pool

end AffineSwarm
