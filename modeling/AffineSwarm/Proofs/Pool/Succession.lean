import AffineSwarm.Proofs.Gene.Heredity
import AffineSwarm.Proofs.Pool.Report
import Mathlib.Data.Nat.Count

/-!
# From one generation to the next

A generation is elitist replacement. Every formula is scored on the examples; the elite is the
first of those scored highest. The elite stays, and so does every other formula that is not
scored below the threshold. In each other slot stands a mutant of the elite's gene afterwards,
without score and without feedback.

All mutants come from the one stream of the pool. Slots are replaced in increasing order, and
each replacement is one mutation, so the mutant in a slot comes from the stream after as many
mutations as there are replaced slots before it; and that is all that is drawn (`cull_eq`, by
induction on the slots).

## Results

* `cull_eq` — what culling leaves in each slot, and how often it mutates.
* `succeeds_nextGeneration` — one generation, slot by slot.
* `generations_replace_elitistly` — a tick is a chain of such generations.
-/

namespace AffineSwarm

-- ---------------------------------------------------------------------------
-- Mutants from one stream
-- ---------------------------------------------------------------------------

namespace Gene

variable {σ : Type} [WordStream σ]

/-- The stream after a gene was mutated some times. -/
def streamAfter (g : Gene) (mutations : Nat) (s : σ) : σ := (fun s => (g.mutate s).2)^[mutations] s

/-- The mutant of a gene that comes from a stream after some earlier mutations. -/
def mutant (g : Gene) (earlier : Nat) (s : σ) : Gene := (g.mutate (g.streamAfter earlier s)).1.gene

theorem streamAfter_succ (g : Gene) (mutations : Nat) (s : σ) :
    g.streamAfter (mutations + 1) s = g.streamAfter mutations (g.mutate s).2 := by
  rw [streamAfter, Function.iterate_succ_apply, streamAfter]

theorem mutant_succ (g : Gene) (earlier : Nat) (s : σ) :
    g.mutant (earlier + 1) s = g.mutant earlier (g.mutate s).2 := by
  rw [mutant, streamAfter_succ, mutant]

end Gene

namespace Pool

-- ---------------------------------------------------------------------------
-- Culling, slot by slot
-- ---------------------------------------------------------------------------

/-- Whether culling replaces the formula in a slot of a list. -/
def culls (threshold : Binary64) (elite index : Nat) (fs : List Formula) (i : Nat) : Bool :=
  fs[i]?.any fun f => PoolConfig.shouldCull threshold f.fitness (index + i = elite)

section Culls

variable {threshold : Binary64} {elite index : Nat} {f : Formula} {rest : List Formula}

theorem culls_zero :
    culls threshold elite index (f :: rest) 0 =
      PoolConfig.shouldCull threshold f.fitness (index = elite) := by
  simp [culls]

theorem culls_succ (i : Nat) :
    culls threshold elite index (f :: rest) (i + 1) =
      culls threshold elite (index + 1) rest i := by
  have hindex : index + (i + 1) = index + 1 + i := by omega
  simp [culls, hindex]

/-- The slots replaced up to one are the first, if it is replaced, and those of the rest. -/
theorem count_culls_succ (n : Nat) :
    Nat.count (culls threshold elite index (f :: rest) ·) (n + 1) =
      Nat.count (culls threshold elite (index + 1) rest ·) n +
        if PoolConfig.shouldCull threshold f.fitness (index = elite) then 1 else 0 := by
  rw [Nat.count_succ']
  simp only [culls_succ, culls_zero]

end Culls

variable {σ : Type} [WordStream σ]

/-- What culling does: a slot that is replaced gets the mutant that comes after those of the
replaced slots before it, and the stream is used for these mutants and nothing else. -/
theorem cull_eq (threshold : Binary64) (gene : Gene) (elite index : Nat) (fs : List Formula)
    (s : σ) :
    let culled := cull threshold gene elite index fs s
    let replaced := Nat.count (culls threshold elite index fs ·)
    culled.replaced = replaced fs.length ∧
    culled.stream = gene.streamAfter (replaced fs.length) s ∧
    ∀ i, culled.formulas[i]? = fs[i]?.map fun f =>
      if culls threshold elite index fs i then .ofGene (gene.mutant (replaced i) s) else f := by
  induction fs generalizing index s with
  | nil => exact ⟨rfl, rfl, fun _ => rfl⟩
  | cons f rest ih =>
    intro culled replaced
    simp only [culled, replaced, List.length_cons, count_culls_succ]
    rw [cull]
    by_cases hcull : PoolConfig.shouldCull threshold f.fitness (index = elite) = true
    · simp only [if_pos hcull]
      obtain ⟨hreplaced, hstream, hslots⟩ := ih (index + 1) (gene.mutate s).2
      refine ⟨congrArg (· + 1) hreplaced, ?_, ?_⟩
      · rw [gene.streamAfter_succ]
        exact hstream
      · intro i
        cases i with
        | zero =>
          have hfirst : culls threshold elite index (f :: rest) 0 = true := culls_zero.trans hcull
          simp only [List.getElem?_cons_zero, Option.map_some, hfirst, if_true, Nat.count_zero]
          rfl
        | succ i =>
          simp only [List.getElem?_cons_succ, culls_succ, count_culls_succ, if_pos hcull,
            gene.mutant_succ]
          exact hslots i
    · simp only [if_neg hcull, Nat.add_zero]
      obtain ⟨hreplaced, hstream, hslots⟩ := ih (index + 1) s
      refine ⟨hreplaced, hstream, ?_⟩
      intro i
      cases i with
      | zero =>
        have hfirst : culls threshold elite index (f :: rest) 0 = false := by
          rw [culls_zero]
          simpa using hcull
        simp only [List.getElem?_cons_zero, Option.map_some, hfirst]
        rfl
      | succ i =>
        simp only [List.getElem?_cons_succ, culls_succ, count_culls_succ, if_neg hcull,
          Nat.add_zero]
        exact hslots i

-- ---------------------------------------------------------------------------
-- One generation
-- ---------------------------------------------------------------------------

section Slots

omit [WordStream σ]

/-- The fitness of a formula on the examples of a pool. -/
def scoreOf (p : Pool σ) (f : Formula) : Binary64 := f.evaluate p.examples.items

/-- Whether a generation with its elite in one slot replaces the formula in another one. -/
def falls (p : Pool σ) (elite i : Nat) : Bool :=
  decide (i ≠ elite) && p.formulas[i]?.any fun f => (p.scoreOf f).lt p.config.threshold

/-- How many slots before one are replaced. -/
def fallenBefore (p : Pool σ) (elite i : Nat) : Nat := Nat.count (p.falls elite ·) i

/-- The formula in a slot is scored as high as any, and higher than those in earlier slots. -/
structure IsElite (p : Pool σ) (slot : Nat) (elite : Formula) : Prop where
  get : p.formulas[slot]? = some elite
  best : ∀ g ∈ p.formulas, (p.scoreOf g).le (p.scoreOf elite) = true
  first : ∀ (i : Nat) (g : Formula), i < slot → p.formulas[i]? = some g →
    (p.scoreOf g).lt (p.scoreOf elite) = true

end Slots

/-- The pool `q` is the next generation of `p`, with the elite in one slot: the elite stays,
and each other formula stays or is replaced, as its score is. -/
structure Succeeds (p q : Pool σ) (slot : Nat) (elite : Formula) (replaced : Nat) : Prop where
  isElite : p.IsElite slot elite
  /-- The elite stays, whatever its score. -/
  elite_kept : q.formulas[slot]? = some { elite with fitness := p.scoreOf elite }
  /-- A formula that is not below the threshold keeps its gene and feedback. -/
  kept : ∀ (i : Nat) (f : Formula), p.formulas[i]? = some f →
    (p.scoreOf f).lt p.config.threshold = false →
    q.formulas[i]? = some { f with fitness := p.scoreOf f }
  /-- Any other is replaced by the mutant of the elite's gene whose turn it is. -/
  mutated : ∀ (i : Nat) (f : Formula), p.formulas[i]? = some f → i ≠ slot →
    (p.scoreOf f).lt p.config.threshold = true →
    let mutant := elite.gene.mutant (p.fallenBefore slot i) p.stream
    elite.gene.IsMutant mutant ∧ q.formulas[i]? = some ⟨mutant, .zero, .zero⟩
  replaced_eq : replaced = p.fallenBefore slot p.size
  /-- The stream is used for as many mutations as slots are replaced. -/
  stream_eq : q.stream = elite.gene.streamAfter replaced p.stream
  size_eq : q.size = p.size
  config_eq : q.config = p.config
  examples_eq : q.examples = p.examples
  generation_eq : q.generation = p.generation + 1

section Slots

omit [WordStream σ]

theorem getElem?_evaluated (p : Pool σ) (i : Nat) :
    p.evaluated[i]? = p.formulas[i]?.map fun f => { f with fitness := p.scoreOf f } := by
  rw [evaluated, List.getElem?_map]
  rfl

/-- Culling scored formulas replaces those that fall. -/
theorem culls_evaluated (p : Pool σ) (elite : Nat) :
    culls p.config.threshold elite 0 p.evaluated = p.falls elite := by
  funext i
  unfold culls falls
  rw [getElem?_evaluated]
  cases p.formulas[i]? with
  | none => simp
  | some f => simp [PoolConfig.shouldCull]

/-- The elite of a generation is the first formula of those scored highest. -/
theorem exists_isElite (p : Pool σ) :
    ∃ elite, p.IsElite p.eliteEntry.1 elite ∧
      p.eliteEntry.2 = { elite with fitness := p.scoreOf elite } := by
  have htop := p.isTop_evaluated
  have hget := htop.get
  rw [getElem?_evaluated, Option.map_eq_some_iff] at hget
  obtain ⟨elite, helite, hscored⟩ := hget
  have hfitness : p.eliteEntry.2.fitness = p.scoreOf elite := by rw [← hscored]
  have hnumber : ∀ f, (p.scoreOf f).isNaN = false := fun f => (Binary64.within_clampUnit _).1
  refine ⟨elite, ⟨helite, ?_, ?_⟩, hscored.symm⟩
  · intro g hg
    obtain ⟨i, hi⟩ := List.getElem?_of_mem hg
    have horder := htop.order_le (i := i) (by rw [getElem?_evaluated, hi]; rfl)
    rw [hfitness] at horder
    exact Binary64.le_iff.mpr ⟨hnumber g, hnumber elite, horder⟩
  · intro i g hi hg
    have habove := htop.ahead i _ (by rw [getElem?_evaluated, hg]; rfl) (by omega)
    refine Binary64.lt_iff.mpr ⟨hnumber g, hnumber elite, ?_⟩
    unfold Outranks at habove
    simp only [hfitness] at habove
    omega

end Slots

/-- A generation replaces the slots that fall and scores the others. -/
theorem nextGeneration_eq (p : Pool σ) :
    let slot := p.eliteEntry.1
    let gene := p.eliteEntry.2.gene
    let next := p.nextGeneration
    next.replaced = p.fallenBefore slot p.size ∧
    next.pool.stream = gene.streamAfter (p.fallenBefore slot p.size) p.stream ∧
    ∀ i, next.pool.formulas[i]? = p.formulas[i]?.map fun f =>
      if p.falls slot i then .ofGene (gene.mutant (p.fallenBefore slot i) p.stream)
      else { f with fitness := p.scoreOf f } := by
  have hcull := cull_eq p.config.threshold p.eliteEntry.2.gene p.eliteEntry.1 0 p.evaluated p.stream
  have hlength : p.evaluated.length = p.size := by simp [evaluated, size]
  simp only [culls_evaluated, hlength, getElem?_evaluated, Option.map_map] at hcull
  exact hcull

/-- A generation makes the next generation of a pool, and counts what it replaces. -/
theorem succeeds_nextGeneration (p : Pool σ) :
    ∃ slot elite, Succeeds p p.nextGeneration.pool slot elite p.nextGeneration.replaced := by
  obtain ⟨elite, helite, hbest⟩ := p.exists_isElite
  obtain ⟨hreplaced, hstream, hslots⟩ := p.nextGeneration_eq
  have hgene : p.eliteEntry.2.gene = elite.gene := by rw [hbest]
  rw [hgene] at hstream hslots
  refine ⟨p.eliteEntry.1, elite, helite, ?_, ?_, ?_, hreplaced, ?_, p.size_nextGeneration, rfl,
    rfl, rfl⟩
  · have hstays : p.falls p.eliteEntry.1 p.eliteEntry.1 = false := by simp [falls]
    rw [hslots, helite.get, Option.map_some, hstays]
    rfl
  · intro i f hf hfit
    have hstays : p.falls p.eliteEntry.1 i = false := by simp [falls, hf, hfit]
    rw [hslots, hf, Option.map_some, hstays]
    rfl
  · intro i f hf hne hlow
    have hfalls : p.falls p.eliteEntry.1 i = true := by simp [falls, hf, hlow, hne]
    refine ⟨elite.gene.isMutant_mutate _, ?_⟩
    rw [hslots, hf, Option.map_some, hfalls]
    rfl
  · rw [hreplaced]
    exact hstream

-- ---------------------------------------------------------------------------
-- Generations
-- ---------------------------------------------------------------------------

/-- One pool comes from another by some generations, which replace some formulas altogether. -/
inductive Evolves : Nat → Nat → Pool σ → Pool σ → Prop
  | none (p : Pool σ) : Evolves 0 0 p p
  | next {p q r : Pool σ} {slot replaced generations more : Nat} {elite : Formula}
      (first : Succeeds p q slot elite replaced) (rest : Evolves generations more q r) :
      Evolves (generations + 1) (replaced + more) p r

/-- Running some generations adds to a report what they replace, by induction on the
generations. -/
theorem evolves_generationsFrom (n : Nat) (report : TickReport) (p : Pool σ) :
    ∃ replaced, Evolves n replaced p (generationsFrom n report p).2 ∧
      (generationsFrom n report p).1.replaced = report.replaced + replaced := by
  induction n generalizing report p with
  | zero => exact ⟨0, .none p, rfl⟩
  | succ n ih =>
    obtain ⟨slot, elite, hfirst⟩ := p.succeeds_nextGeneration
    obtain ⟨more, hrest, hreplaced⟩ :=
      ih ⟨report.generations + 1, p.nextGeneration.bestFitness,
        report.replaced + p.nextGeneration.replaced⟩ p.nextGeneration.pool
    refine ⟨_, .next hfirst hrest, ?_⟩
    rw [generationsFrom, hreplaced]
    exact Nat.add_assoc ..

/-- **A tick is a chain of elitist replacements.** On a pool with examples it runs as many
generations as it is told. In each of them every formula is scored on the examples; the first
of those scored highest stays in its slot with its gene and feedback, and so does every other
formula that is not below the threshold; the other slots get mutants of the elite's gene,
without score and feedback, one mutation of the pool's stream for each slot in increasing
order. What is reported as replaced is the number of these slots in all generations. -/
theorem generations_replace_elitistly (p : Pool σ) (generations : Nat)
    (examples : p.examples.isEmpty = false) :
    (p.tick generations).1.generations = generations ∧
    Evolves generations (p.tick generations).1.replaced p (p.tick generations).2 := by
  have hgenerations := p.generations_tick generations
  rw [examples, if_neg Bool.false_ne_true] at hgenerations
  refine ⟨hgenerations, ?_⟩
  obtain ⟨replaced, hevolves, hreplaced⟩ :=
    evolves_generationsFrom generations ⟨0, .zero, 0⟩ p
  rw [tick, examples, if_neg Bool.false_ne_true, hreplaced]
  simp only [Nat.zero_add]
  exact hevolves

/-- Of two formulas the first fits both examples, and the other slot is replaced in each of two
generations. -/
theorem generations_replace_elitistly_of_two :
    let formulas : List Formula :=
      [.ofGene ⟨[2, 1, 0, 0], by decide⟩, .ofGene ⟨[0, 0, 0, 0], by decide⟩]
    let p : Pool ChaCha.Stream :=
      ⟨⟨2, 4, .half⟩, formulas, ⟨[⟨1, 3⟩, ⟨2, 5⟩], by decide⟩, .ofSeed 42, 0, List.cons_ne_nil _ _⟩
    p.examples.isEmpty = false ∧ (p.tick 2).1.generations = 2 ∧ Evolves 2 2 p (p.tick 2).2 := by
  intro formulas p
  have examples : p.examples.isEmpty = false := rfl
  have hreplaced : (p.tick 2).1.replaced = 2 := by decide +kernel
  obtain ⟨hgenerations, hevolves⟩ := generations_replace_elitistly p 2 examples
  rw [hreplaced] at hevolves
  exact ⟨examples, hgenerations, hevolves⟩

end Pool

end AffineSwarm
