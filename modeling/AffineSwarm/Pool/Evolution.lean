import AffineSwarm.Pool.Basic

/-!
# Evolution

One generation scores every formula, takes the best one as the elite, and replaces
every other formula below the survival threshold by a mutated copy of the elite's
gene, slot by slot. Training runs generations in rounds until the elite is fit
enough; a round that does not improve the elite is followed by fresh random genes.
-/

namespace AffineSwarm.Pool

variable {σ : Type} [WordStream σ]

-- ---------------------------------------------------------------------------
-- One generation
-- ---------------------------------------------------------------------------

/-- Every formula with its fitness on the examples. -/
def evaluated (p : Pool σ) : List Formula :=
  p.formulas.map fun f => { f with fitness := f.evaluate p.examples.items }

/-- The formulas after culling, how many were replaced, and the stream after that. -/
structure Culled (σ : Type) where
  formulas : List Formula
  replaced : Nat
  stream : σ

/-- Replace the formulas below the threshold by mutated copies of a gene. The formula
at index `elite` stays; `index` is the index of the first formula of the list. -/
def cull (threshold : Binary64) (gene : Gene) (elite : Nat) :
    Nat → List Formula → σ → Culled σ
  | _, [], s => ⟨[], 0, s⟩
  | index, f :: rest, s =>
    if PoolConfig.shouldCull threshold f.fitness (index = elite) then
      let (mutation, s) := gene.mutate s
      let culled := cull threshold gene elite (index + 1) rest s
      ⟨.ofGene mutation.gene :: culled.formulas, culled.replaced + 1, culled.stream⟩
    else
      let culled := cull threshold gene elite (index + 1) rest s
      { culled with formulas := f :: culled.formulas }

@[simp] theorem length_cull (threshold : Binary64) (gene : Gene) (elite index : Nat)
    (fs : List Formula) (s : σ) :
    (cull threshold gene elite index fs s).formulas.length = fs.length := by
  induction fs generalizing index s with
  | nil => rfl
  | cons f rest ih =>
    simp only [cull]
    split <;> simp [ih]

structure TickReport where
  generations : Nat
  /-- The elite's fitness in the last generation. -/
  bestFitness : Binary64
  /-- Formulas replaced, over all generations. -/
  replaced : Nat
  deriving DecidableEq, Repr

/-- One generation: the pool after it, the elite's fitness, and how many formulas were
replaced. -/
structure Generation (σ : Type) where
  pool : Pool σ
  bestFitness : Binary64
  replaced : Nat

omit [WordStream σ] in
theorem evaluated_ne (p : Pool σ) : p.evaluated ≠ [] := by
  simpa [evaluated] using p.formulas_ne

def nextGeneration (p : Pool σ) : Generation σ :=
  let scored := p.evaluated
  let elite := firstBest (scored.head p.evaluated_ne) scored.tail
  let culled := cull p.config.threshold elite.2.gene elite.1 0 scored p.stream
  let pool : Pool σ :=
    { p with
      formulas := culled.formulas
      stream := culled.stream
      generation := p.generation + 1
      formulas_ne := by
        apply List.ne_nil_of_length_pos
        simp only [culled, length_cull]
        exact List.length_pos_iff.mpr p.evaluated_ne }
  ⟨pool, elite.2.fitness, culled.replaced⟩

/-- Run `n` generations, adding to a report. -/
def generationsFrom : Nat → TickReport → Pool σ → TickReport × Pool σ
  | 0, report, p => (report, p)
  | n + 1, report, p =>
    let next := p.nextGeneration
    generationsFrom n
      ⟨report.generations + 1, next.bestFitness, report.replaced + next.replaced⟩ next.pool

/-- Run up to `generations` generations. Without examples there is nothing to score
against, and the pool stays as it is. -/
def tick (p : Pool σ) (generations : Nat) : TickReport × Pool σ :=
  if p.examples.isEmpty then (⟨0, p.best.fitness, 0⟩, p)
  else generationsFrom generations ⟨0, .zero, 0⟩ p

-- ---------------------------------------------------------------------------
-- Training
-- ---------------------------------------------------------------------------

def reseed (p : Pool σ) : Pool σ :=
  let drawn := drawFormulas p.config.geneLength p.formulas.length p.stream
  { p with
    formulas := drawn.1
    stream := drawn.2
    formulas_ne := by
      apply List.ne_nil_of_length_pos
      simp only [drawn, length_drawFormulas]
      exact List.length_pos_iff.mpr p.formulas_ne }

/-- Train for at most `rounds` more rounds; `lastBest` is the fitness to improve on. -/
def trainFrom (target : Binary64) (generations maxRounds : Nat) :
    Nat → Binary64 → Pool σ → Except PoolError Formula × Pool σ
  | 0, _, p => (.error (.notConverged maxRounds p.best.fitness), p)
  | rounds + 1, lastBest, p =>
    let (report, p) := p.tick generations
    if target.le report.bestFitness then (.ok p.best, p)
    else if report.bestFitness.le lastBest then
      trainFrom target generations maxRounds rounds .zero p.reseed
    else trainFrom target generations maxRounds rounds report.bestFitness p

/-- Run rounds of generations until the elite reaches the target fitness. -/
def trainUntil (p : Pool σ) (target : Binary64) (generations maxRounds : Nat) :
    Except PoolError Formula × Pool σ :=
  if p.examples.isEmpty then (.error (.notConverged 0 p.best.fitness), p)
  else trainFrom target generations maxRounds maxRounds p.best.fitness p

end AffineSwarm.Pool
