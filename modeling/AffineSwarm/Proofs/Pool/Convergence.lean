import AffineSwarm.Proofs.Pool.Report

/-!
# When training succeeds

Training succeeds at the first round whose tick ends with a formula that is fit enough, and
returns that formula (`trainUntil_of_reached`). It looks at the fitness that the tick reports,
which is found before the tick culls; but what it returns is the best formula after that. With
at least one generation in a round these agree, as culling does not change who is best. With
none the report is zero, and success means only that zero is enough; then the best formula is
enough too, since no fitness is negative.

Each round runs as many generations as it is told, and neither ticks nor fresh genes change the
examples, so the count of generations tells how many rounds there were
(`generation_roundEnd`).

## Results

* `score_roundAfter` — what a round is judged by.
* `trainUntil_of_reached`, `trainUntil_of_missed` — training on examples, by its rounds.
* `training_success_exact` — when training succeeds and what it returns then.
-/

namespace AffineSwarm.Pool

variable {σ : Type} [WordStream σ] {p : Pool σ}

-- ---------------------------------------------------------------------------
-- Rounds
-- ---------------------------------------------------------------------------

/-- The pool with which the tick of a round ends, if the rounds before it did not reach the
target. The first round has number zero. -/
def roundEnd (p : Pool σ) (generations round : Nat) : Pool σ :=
  ((p.roundAfter generations round).pool.tick generations).2

theorem examples_roundEnd (p : Pool σ) (generations round : Nat) :
    (p.roundEnd generations round).examples = p.examples := by
  rw [roundEnd, (tick_keeps _ _).1, examples_roundAfter]

/-- On examples each round runs as many generations as it is told. -/
theorem generations_roundAfter (h : p.examples.isEmpty = false) (generations round : Nat) :
    ((p.roundAfter generations round).pool.tick generations).1.generations = generations := by
  rw [generations_tick, examples_roundAfter, h]
  rfl

/-- Drawing fresh genes after a round does not count as a generation. -/
theorem generation_roundAfter_succ (p : Pool σ) (generations round : Nat) :
    (p.roundAfter generations (round + 1)).pool.generation =
      (p.roundEnd generations round).generation := by
  rw [roundAfter, Function.iterate_succ_apply', Round.next]
  split <;> rfl

theorem generation_roundEnd (h : p.examples.isEmpty = false) (generations round : Nat) :
    (p.roundEnd generations round).generation = p.generation + (round + 1) * generations := by
  induction round with
  | zero =>
    rw [roundEnd, generation_tick, generations_roundAfter h, Nat.zero_add, Nat.one_mul]
    rfl
  | succ round ih =>
    rw [roundEnd, generation_tick, generations_roundAfter h, generation_roundAfter_succ, ih,
      Nat.add_assoc, ← Nat.succ_mul]

/-- A round of at least one generation is judged by the best formula that its tick leaves. -/
theorem score_roundAfter {generations : Nat} (hpos : 1 ≤ generations) (round : Nat) :
    (p.roundAfter generations round).score generations =
      (p.roundEnd generations round).best.fitness :=
  bestFitness_tick (.inr hpos)

/-- The best formula after a tick has the fitness that it has on the examples. -/
theorem fitness_best_roundEnd (h : p.examples.isEmpty = false) {generations : Nat}
    (hpos : 1 ≤ generations) (round : Nat) :
    (p.roundEnd generations round).best.fitness =
      (p.roundEnd generations round).best.evaluate p.examples.items := by
  have hexamples : (p.roundAfter generations round).pool.examples.isEmpty = false := by
    rw [examples_roundAfter]
    exact h
  obtain ⟨hseated, -⟩ := seated_tick hexamples hpos
  have hscore := hseated.score
  rw [(tick_keeps _ _).1, examples_roundAfter] at hscore
  exact hscore

-- ---------------------------------------------------------------------------
-- Where training ends
-- ---------------------------------------------------------------------------

/-- Training that succeeds had examples, and ended with a round that was judged to be enough. -/
theorem trainUntil_eq_ok {target : Binary64} {generations maxRounds : Nat} {f : Formula}
    (h : (p.trainUntil target generations maxRounds).1 = .ok f) :
    p.examples.isEmpty = false ∧ ∃ round,
      target.le ((p.roundAfter generations round).score generations) = true ∧
      f = (p.roundEnd generations round).best ∧
      (p.trainUntil target generations maxRounds).2 = p.roundEnd generations round := by
  cases hexamples : p.examples.isEmpty with
  | true =>
    rw [trainUntil, hexamples] at h
    cases h
  | false =>
    refine ⟨rfl, ?_⟩
    obtain ⟨round, -, -, hreached, hend⟩ | ⟨-, hend⟩ :=
      trainUntil_cases hexamples target generations maxRounds
    · rw [hend] at h ⊢
      cases h
      exact ⟨round, hreached, rfl, rfl⟩
    · rw [hend] at h
      cases h

/-- Training succeeds at the first round that ends with a formula that is fit enough. -/
theorem trainUntil_of_reached (hexamples : p.examples.isEmpty = false) {target : Binary64}
    {generations maxRounds round : Nat} (hpos : 1 ≤ generations) (hround : round < maxRounds)
    (hmissed : ∀ j < round, target.le (p.roundEnd generations j).best.fitness = false)
    (hreached : target.le (p.roundEnd generations round).best.fitness = true) :
    p.trainUntil target generations maxRounds =
      (.ok (p.roundEnd generations round).best, p.roundEnd generations round) := by
  simp only [← score_roundAfter hpos] at hmissed hreached
  obtain ⟨k, hk, hbefore, hat, hend⟩ | ⟨hnone, -⟩ :=
    trainUntil_cases hexamples target generations maxRounds
  · -- two rounds that are both the first to reach the target are one
    obtain rfl : k = round := by
      rcases Nat.lt_trichotomy k round with hlt | heq | hgt
      · simp [hmissed k hlt] at hat
      · exact heq
      · simp [hbefore round hgt] at hreached
    exact hend
  · simp [hnone round hround] at hreached

/-- Training fails if no round ends with a formula that is fit enough. -/
theorem trainUntil_of_missed (hexamples : p.examples.isEmpty = false) {target : Binary64}
    {generations maxRounds : Nat} (hpos : 1 ≤ generations)
    (hmissed : ∀ j < maxRounds, target.le (p.roundEnd generations j).best.fitness = false) :
    ∃ e, (p.trainUntil target generations maxRounds).1 = .error e := by
  simp only [← score_roundAfter hpos] at hmissed
  obtain ⟨k, hk, -, hat, -⟩ | ⟨-, hend⟩ :=
    trainUntil_cases hexamples target generations maxRounds
  · simp [hmissed k hk] at hat
  · exact ⟨_, congrArg Prod.fst hend⟩

theorem examples_trainUntil (p : Pool σ) (target : Binary64) (generations maxRounds : Nat) :
    (p.trainUntil target generations maxRounds).2.examples = p.examples := by
  cases hexamples : p.examples.isEmpty with
  | true => rw [trainUntil, if_pos hexamples]
  | false =>
    obtain ⟨round, -, -, -, hend⟩ | ⟨-, hend⟩ :=
      trainUntil_cases hexamples target generations maxRounds
    · rw [hend]
      exact p.examples_roundEnd generations round
    · rw [hend]
      exact p.examples_roundAfter generations maxRounds

/-- **When training succeeds.** If training of a reached pool succeeds, the pool has examples,
what is returned is the best formula of the pool that is left, and that is fit enough; if rounds
have generations, its fitness is the one that it has on the examples. Conversely, on examples
and with generations, training returns the best formula of the first round that ends with one
that is fit enough, and fails if no round does; and each round runs as many generations as it is
told. The examples are the same afterwards in every case. -/
theorem training_success_exact (p : Pool σ) (reachable : Reachable p) (target : Binary64)
    (generations maxRounds : Nat) :
    let trained := p.trainUntil target generations maxRounds
    (∀ f, trained.1 = .ok f →
      p.examples.isEmpty = false ∧ f = trained.2.best ∧ target.le f.fitness = true ∧
      (1 ≤ generations → f.fitness = f.evaluate p.examples.items)) ∧
    (p.examples.isEmpty = false → 1 ≤ generations →
      (∀ round < maxRounds,
        (∀ j < round, target.le (p.roundEnd generations j).best.fitness = false) →
        target.le (p.roundEnd generations round).best.fitness = true →
        trained = (.ok (p.roundEnd generations round).best, p.roundEnd generations round)) ∧
      ((∀ round < maxRounds, target.le (p.roundEnd generations round).best.fitness = false) →
        ∃ e, trained.1 = .error e) ∧
      ∀ round,
        ((p.roundAfter generations round).pool.tick generations).1.generations = generations ∧
        (p.roundEnd generations round).generation =
          p.generation + (round + 1) * generations) ∧
    trained.2.examples = p.examples := by
  intro trained
  refine ⟨?_, ?_, p.examples_trainUntil target generations maxRounds⟩
  · intro f hf
    obtain ⟨hexamples, round, hreached, rfl, hleft⟩ := trainUntil_eq_ok hf
    refine ⟨hexamples, ?_, ?_, ?_⟩
    · rw [hleft]
    · obtain ⟨config, examples, holds⟩ := reachable.holds
      have hwithin : ∀ g ∈ (p.roundEnd generations round).formulas,
          Binary64.Within .zero .one g.fitness := by
        intro g hg
        have hmember := (holds.trainUntil target generations maxRounds).member
        rw [hleft] at hmember
        exact (hmember g hg).fitness_within
      exact Binary64.le_trans hreached (bestFitness_tick_le hwithin)
    · intro hpos
      exact fitness_best_roundEnd hexamples hpos round
  · intro hexamples hpos
    refine ⟨?_, trainUntil_of_missed hexamples hpos, ?_⟩
    · intro round hround hmissed hreached
      exact trainUntil_of_reached hexamples hpos hround hmissed hreached
    · intro round
      exact ⟨generations_roundAfter hexamples generations round,
        generation_roundEnd hexamples generations round⟩

/-- A target of one half is reached in the first round of two. -/
theorem training_success_exact_of_near_miss :
    let trained := nearMiss.trainUntil .half 1 2
    Reachable nearMiss ∧ trained = (.ok (nearMiss.roundEnd 1 0).best, nearMiss.roundEnd 1 0) ∧
    trained.2.best.fitness = .half ∧ trained.2.generation = 1 := by
  intro trained
  have fresh : Fresh ⟨1, 4, .half⟩ loner := ⟨.ofSeed 42, .inl rfl⟩
  have reachable : Reachable nearMiss := ⟨_, loner, [.addExample ⟨1, -7⟩], fresh, rfl⟩
  have hbest : (nearMiss.roundEnd 1 0).best.fitness = .half := by decide +kernel
  obtain ⟨-, hcomplete, -⟩ := training_success_exact nearMiss reachable .half 1 2
  obtain ⟨hfirst, -, hrounds⟩ := hcomplete rfl (by decide)
  have hend := hfirst 0 (by decide) (by simp) (by rw [hbest]; decide)
  have hgeneration := (hrounds 0).2
  refine ⟨reachable, hend, ?_, ?_⟩
  · simp only [trained, hend]
    exact hbest
  · simp only [trained, hend, hgeneration]
    rfl

end AffineSwarm.Pool
