import AffineSwarm.Proofs.Pool.Training

/-!
# What a tick reports

A tick reports how many generations it ran and the fitness of the elite in the last of them.
The number is what the generation count of the pool grows by, and that elite is the best
formula that the tick leaves. A pool without examples is left alone, and the fitness of its
best formula is reported as it stands.

There is one gap. A tick of no generations leaves a pool with examples alone too, but it looks
at no elite, and reports a fitness of zero. So what is reported is the best fitness of the pool
exactly if there are no examples, or a generation was run, or the best fitness is zero
(`tick_report`, `tick_report_of_no_generations`).

## Results

* `generation_tick`, `generations_tick` — how many generations a tick runs.
* `tick_eq_self` — a tick that runs none leaves the pool alone.
* `bestFitness_tick`, `bestFitness_tick_zero` — the fitness that it reports.
* `bestFitness_tick_le` — which is never more than the best fitness that is left.
-/

namespace AffineSwarm.Pool

variable {σ : Type} [WordStream σ] {p : Pool σ}

-- ---------------------------------------------------------------------------
-- Generations
-- ---------------------------------------------------------------------------

/-- Running generations counts them in the report and in the pool. -/
theorem generationsFrom_counts (n : Nat) (report : TickReport) (p : Pool σ) :
    (generationsFrom n report p).1.generations = report.generations + n ∧
      (generationsFrom n report p).2.generation = p.generation + n := by
  induction n generalizing report p with
  | zero => exact ⟨rfl, rfl⟩
  | succ n ih =>
    obtain ⟨hreport, hpool⟩ := ih ⟨_, _, _⟩ p.nextGeneration.pool
    have hnext : p.nextGeneration.pool.generation = p.generation + 1 := rfl
    rw [generationsFrom, hreport, hpool, hnext]
    simp only
    omega

theorem generations_tick (p : Pool σ) (generations : Nat) :
    (p.tick generations).1.generations = if p.examples.isEmpty then 0 else generations := by
  unfold tick
  split
  · rfl
  · rw [(generationsFrom_counts _ _ _).1]
    exact Nat.zero_add generations

/-- The pool counts the generations that are reported. -/
theorem generation_tick (p : Pool σ) (generations : Nat) :
    (p.tick generations).2.generation = p.generation + (p.tick generations).1.generations := by
  rw [generations_tick]
  unfold tick
  split
  · rfl
  · exact (generationsFrom_counts _ _ _).2

/-- A tick that runs no generation leaves the pool as it is. -/
theorem tick_eq_self {generations : Nat} (h : (p.tick generations).1.generations = 0) :
    (p.tick generations).2 = p := by
  rw [generations_tick] at h
  unfold tick
  split
  · rfl
  · rename_i hexamples
    rw [if_neg hexamples] at h
    rw [h, generationsFrom]

-- ---------------------------------------------------------------------------
-- The best fitness
-- ---------------------------------------------------------------------------

/-- What is reported is the fitness of the best formula that is left, if there are no examples
or a generation is run. -/
theorem bestFitness_tick {generations : Nat}
    (h : p.examples.isEmpty = true ∨ 1 ≤ generations) :
    (p.tick generations).1.bestFitness = (p.tick generations).2.best.fitness := by
  cases hexamples : p.examples.isEmpty with
  | true =>
    rw [tick, hexamples]
    rfl
  | false =>
    have hpos : 1 ≤ generations := by simpa [hexamples] using h
    obtain ⟨-, hreport, -⟩ := seated_tick hexamples hpos
    exact hreport

/-- A tick of no generations on examples reports zero. -/
theorem bestFitness_tick_zero (h : p.examples.isEmpty = false) :
    (p.tick 0).1.bestFitness = .zero := by
  rw [tick, h]
  rfl

/-- What is reported is never more than the best fitness that is left. -/
theorem bestFitness_tick_le {generations : Nat}
    (h : ∀ f ∈ (p.tick generations).2.formulas, Binary64.Within .zero .one f.fitness) :
    (p.tick generations).1.bestFitness.le (p.tick generations).2.best.fitness = true := by
  obtain ⟨hnumber, hzero, -⟩ := h _ (p.tick generations).2.best_mem
  by_cases hrun : p.examples.isEmpty = true ∨ 1 ≤ generations
  · rw [bestFitness_tick hrun]
    exact Binary64.le_iff.mpr ⟨hnumber, hnumber, Int.le_refl _⟩
  · obtain ⟨hexamples, rfl⟩ : p.examples.isEmpty = false ∧ generations = 0 := by
      simpa using hrun
    rw [bestFitness_tick_zero hexamples]
    exact hzero

/-- **What a tick reports.** The generations reported are those by which the count of the pool
grows: none without examples, else as many as were asked for. If none was run, the pool is as
it was. The best fitness reported is that of the best formula that is left, unless the pool has
examples and no generation was asked for; then it is zero. So report and pool agree on the best
fitness exactly if there are no examples, a generation was run, or the best fitness is zero. -/
theorem tick_report (p : Pool σ) (generations : Nat) :
    let report := (p.tick generations).1
    let left := (p.tick generations).2
    left.generation = p.generation + report.generations ∧
    report.generations = (if p.examples.isEmpty then 0 else generations) ∧
    (report.generations = 0 → left = p) ∧
    (p.examples.isEmpty = true ∨ 1 ≤ generations → report.bestFitness = left.best.fitness) ∧
    (p.examples.isEmpty = false → generations = 0 → report.bestFitness = .zero) ∧
    (report.bestFitness.order = left.best.fitness.order ↔
      p.examples.isEmpty = true ∨ 1 ≤ generations ∨ left.best.fitness.order = 0) := by
  intro report left
  refine ⟨p.generation_tick generations, p.generations_tick generations, tick_eq_self,
    bestFitness_tick, ?_, ?_⟩
  · rintro hexamples rfl
    exact bestFitness_tick_zero hexamples
  · by_cases hrun : p.examples.isEmpty = true ∨ 1 ≤ generations
    · have hagree : report.bestFitness = left.best.fitness := bestFitness_tick hrun
      rw [hagree, ← or_assoc]
      simp [hrun]
    · obtain ⟨hexamples, rfl⟩ : p.examples.isEmpty = false ∧ generations = 0 := by
        simpa using hrun
      have hzero : report.bestFitness = .zero := bestFitness_tick_zero hexamples
      have horder : Binary64.zero.order = 0 := rfl
      rw [hzero, horder]
      simp [hexamples, eq_comm]

/-- **The report of no generations forgets the elite.** After one generation the pool of one
formula has a best fitness of one half. A tick of no generations leaves it alone and reports
zero. -/
theorem tick_report_of_no_generations :
    let p := nearMiss.after [.tick 1]
    Fresh ⟨1, 4, .half⟩ loner ∧ p.best.fitness = .half ∧ (p.tick 0).2 = p ∧
    (p.tick 0).1.bestFitness = .zero ∧
    (p.tick 0).1.bestFitness ≠ (p.tick 0).2.best.fitness := by
  intro p
  have fresh : Fresh ⟨1, 4, .half⟩ loner := ⟨.ofSeed 42, .inl rfl⟩
  have hbest : p.best.fitness = .half := by decide +kernel
  have hsame : (p.tick 0).2 = p := rfl
  have hzero : (p.tick 0).1.bestFitness = .zero := rfl
  refine ⟨fresh, hbest, hsame, hzero, ?_⟩
  rw [hzero, hsame, hbest]
  decide

end AffineSwarm.Pool
