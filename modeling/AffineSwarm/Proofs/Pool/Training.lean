import AffineSwarm.Proofs.Pool.Elite
import AffineSwarm.Random.ChaCha
import Mathlib.Logic.Function.Iterate

/-!
# Training

Training goes in rounds. A round runs some generations; if the elite is not fit enough
after them, it is what the next round has to improve on, unless it did not get fitter in
this round: then the genes are drawn anew and there is nothing to improve on any more
(`Round.next`). Training ends with the first round that reaches its target, or when there
are no rounds left (`trainFrom_cases`, by induction on the rounds).

So what training reports when it gives up is the best formula that it leaves. After a last
round in which the elite got fitter this is the elite of that round. After any other last
round the genes have just been drawn anew, nobody has scored them, and both the report and
the elite are lost (`training_failure_report`, `training_failure_loses_elite`).

## Results

* `trainFrom_cases`, `trainUntil_cases` — where training ends.
* `Round.next_of_stagnates`, `Round.next_of_improves` — what a round without success leaves.
* `training_failure_report` — what is reported and left when training gives up.
-/

namespace AffineSwarm.Pool

variable {σ : Type} [WordStream σ]

-- ---------------------------------------------------------------------------
-- Rounds
-- ---------------------------------------------------------------------------

/-- Where training stands before a round: the fitness to improve on, and the pool. -/
structure Round (σ : Type) where
  lastBest : Binary64
  pool : Pool σ

namespace Round

/-- The elite fitness that a round of some generations reports. -/
def score (generations : Nat) (r : Round σ) : Binary64 :=
  (r.pool.tick generations).1.bestFitness

/-- Whether the elite of a round is no fitter than the one before. -/
def stagnates (generations : Nat) (r : Round σ) : Bool :=
  (r.score generations).le r.lastBest

/-- Where training stands after a round that did not reach its target. -/
def next (generations : Nat) (r : Round σ) : Round σ :=
  if r.stagnates generations then ⟨.zero, (r.pool.tick generations).2.reseed⟩
  else ⟨r.score generations, (r.pool.tick generations).2⟩

end Round

/-- Where the training of a pool stands after some rounds that did not reach the target. -/
def roundAfter (p : Pool σ) (generations rounds : Nat) : Round σ :=
  (Round.next generations)^[rounds] ⟨p.best.fitness, p⟩

variable {p left : Pool σ} {target : Binary64} {generations : Nat} {r : Round σ}

-- ---------------------------------------------------------------------------
-- Where training ends
-- ---------------------------------------------------------------------------

/-- One round more: success, or the rounds after it. -/
theorem trainFrom_succ (target : Binary64) (generations maxRounds rounds : Nat) (r : Round σ) :
    trainFrom target generations maxRounds (rounds + 1) r.lastBest r.pool =
      if target.le (r.score generations) then
        (.ok (r.pool.tick generations).2.best, (r.pool.tick generations).2)
      else
        trainFrom target generations maxRounds rounds (r.next generations).lastBest
          (r.next generations).pool := by
  rw [trainFrom, Round.next, Round.stagnates, Round.score]
  simp only
  split
  · rfl
  · split <;> rfl

/-- Training ends with the first round that reaches the target, or after all rounds. -/
theorem trainFrom_cases (target : Binary64) (generations maxRounds rounds : Nat) (r : Round σ) :
    let round : Nat → Round σ := fun k => (Round.next generations)^[k] r
    (∃ k < rounds, (∀ j < k, target.le ((round j).score generations) = false) ∧
      target.le ((round k).score generations) = true ∧
      trainFrom target generations maxRounds rounds r.lastBest r.pool =
        (.ok ((round k).pool.tick generations).2.best, ((round k).pool.tick generations).2)) ∨
    ((∀ j < rounds, target.le ((round j).score generations) = false) ∧
      trainFrom target generations maxRounds rounds r.lastBest r.pool =
        (.error (.notConverged maxRounds (round rounds).pool.best.fitness),
          (round rounds).pool)) := by
  intro round
  induction rounds generalizing r with
  | zero => exact .inr ⟨nofun, rfl⟩
  | succ rounds ih =>
    rw [trainFrom_succ]
    by_cases hreached : target.le (r.score generations) = true
    · refine .inl ⟨0, Nat.succ_pos _, nofun, hreached, ?_⟩
      rw [if_pos hreached]
      rfl
    · rw [if_neg hreached]
      have hfirst : target.le ((round 0).score generations) = false := by
        simpa [round] using hreached
      -- a round missed the target if it is the first, or one of those after it
      have hmissed : ∀ n, (∀ j < n, target.le ((round (j + 1)).score generations) = false) →
          ∀ j < n + 1, target.le ((round j).score generations) = false := by
        intro n hrest j hj
        cases j with
        | zero => exact hfirst
        | succ j => exact hrest j (by omega)
      rcases ih (r.next generations) with ⟨k, hk, hbefore, hat, hend⟩ | ⟨hbefore, hend⟩
      · exact .inl ⟨k + 1, by omega, hmissed k hbefore, hat, hend⟩
      · exact .inr ⟨hmissed rounds hbefore, hend⟩

/-- The same for training from the beginning, on examples. -/
theorem trainUntil_cases (hexamples : p.examples.isEmpty = false) (target : Binary64)
    (generations maxRounds : Nat) :
    (∃ k < maxRounds,
      (∀ j < k, target.le ((p.roundAfter generations j).score generations) = false) ∧
      target.le ((p.roundAfter generations k).score generations) = true ∧
      p.trainUntil target generations maxRounds =
        (.ok ((p.roundAfter generations k).pool.tick generations).2.best,
          ((p.roundAfter generations k).pool.tick generations).2)) ∨
    ((∀ j < maxRounds,
      target.le ((p.roundAfter generations j).score generations) = false) ∧
      p.trainUntil target generations maxRounds =
        (.error (.notConverged maxRounds (p.roundAfter generations maxRounds).pool.best.fitness),
          (p.roundAfter generations maxRounds).pool)) := by
  rw [trainUntil, hexamples]
  exact trainFrom_cases target generations maxRounds maxRounds ⟨p.best.fitness, p⟩

-- ---------------------------------------------------------------------------
-- What a round leaves
-- ---------------------------------------------------------------------------

/-- Fresh genes have no score yet. -/
theorem fitness_of_mem_drawFormulas {geneLength count : Nat} {s : σ} {f : Formula}
    (h : f ∈ (drawFormulas geneLength count s).1) : f.fitness = .zero := by
  induction count generalizing s with
  | zero => cases h
  | succ count ih =>
    rcases List.mem_cons.mp h with rfl | hrest
    · rfl
    · exact ih hrest

theorem fitness_of_mem_reseed {f : Formula} (h : f ∈ p.reseed.formulas) : f.fitness = .zero :=
  fitness_of_mem_drawFormulas h

theorem examples_next (generations : Nat) (r : Round σ) :
    (r.next generations).pool.examples = r.pool.examples := by
  have hticked := (r.pool.tick_keeps generations).1
  rw [Round.next]
  split <;> exact hticked

theorem examples_roundAfter (p : Pool σ) (generations rounds : Nat) :
    (p.roundAfter generations rounds).pool.examples = p.examples := by
  induction rounds with
  | zero => rfl
  | succ rounds ih =>
    rw [roundAfter, Function.iterate_succ_apply', examples_next]
    exact ih

/-- A round in which the elite did not get fitter leaves genes without scores. -/
theorem Round.next_of_stagnates (h : r.stagnates generations = true) :
    ∀ f ∈ (r.next generations).pool.formulas, f.fitness = .zero := by
  intro f hf
  rw [Round.next, if_pos h] at hf
  exact fitness_of_mem_reseed hf

/-- A round in which the elite got fitter leaves it in the pool, as the best. -/
theorem Round.next_of_improves (h : r.stagnates generations = false)
    (hexamples : r.pool.examples.isEmpty = false) (hpos : 1 ≤ generations) :
    (r.next generations).pool.best = (r.pool.tick generations).2.best ∧
      (r.next generations).pool.best.fitness = r.score generations := by
  have hnext : (r.next generations).pool = (r.pool.tick generations).2 := by
    rw [Round.next, h]
    rfl
  obtain ⟨-, hreport, -⟩ := seated_tick hexamples hpos
  rw [hnext]
  exact ⟨rfl, hreport.symm⟩

-- ---------------------------------------------------------------------------
-- Giving up
-- ---------------------------------------------------------------------------

/-- **What training reports when it gives up.** All its rounds were run, and what it leaves
is what the last of them left. The report is the elite fitness of the last round, and a
formula with that fitness is left, exactly if the elite got fitter in the last round or had
a fitness of zero. After any other last round the report is zero and no formula is left that
has a score. -/
theorem training_failure_report (p : Pool σ) (target : Binary64)
    (generations maxRounds rounds : Nat) (fitness : Binary64) (left : Pool σ)
    (examples : p.examples.isEmpty = false) (someGenerations : 1 ≤ generations)
    (someRounds : 1 ≤ maxRounds)
    (failed : p.trainUntil target generations maxRounds =
      (.error (.notConverged rounds fitness), left)) :
    let last := p.roundAfter generations (maxRounds - 1)
    rounds = maxRounds ∧ left = (last.next generations).pool ∧
    ((fitness = last.score generations ∧
        ∃ f ∈ left.formulas, f.fitness = last.score generations) ↔
      (last.stagnates generations = false ∨ last.score generations = .zero)) ∧
    (last.stagnates generations = true →
      fitness = .zero ∧ ∀ f ∈ left.formulas, f.fitness = .zero) := by
  intro last
  obtain ⟨n, rfl⟩ : ∃ n, maxRounds = n + 1 := ⟨maxRounds - 1, by omega⟩
  have hlast : last = p.roundAfter generations n := rfl
  have hleft : p.roundAfter generations (n + 1) = last.next generations := by
    rw [roundAfter, Function.iterate_succ_apply', hlast, roundAfter]
  have hexamples : last.pool.examples.isEmpty = false := by
    rw [hlast, examples_roundAfter]
    exact examples
  rcases trainUntil_cases examples target generations (n + 1) with
    ⟨k, -, -, -, hend⟩ | ⟨-, hend⟩
  · rw [hend] at failed
    cases failed
  rw [hend, hleft] at failed
  cases failed
  have hmem := (last.next generations).pool.best_mem
  refine ⟨rfl, rfl, ?_, fun hstagnates => ?_⟩
  · cases hstagnates : last.stagnates generations with
    | false =>
      obtain ⟨-, hfitness⟩ := Round.next_of_improves hstagnates hexamples someGenerations
      exact ⟨fun _ => .inl rfl, fun _ => ⟨hfitness, _, hmem, hfitness⟩⟩
    | true =>
      have hzero := Round.next_of_stagnates hstagnates
      constructor
      · rintro ⟨hfitness, -⟩
        exact .inr (hfitness.symm.trans (hzero _ hmem))
      · rintro (himproves | hscore)
        · cases himproves
        · rw [hscore]
          exact ⟨hzero _ hmem, _, hmem, hzero _ hmem⟩
  · have hzero := Round.next_of_stagnates hstagnates
    exact ⟨hzero _ hmem, hzero⟩

/-- A new pool of one formula, which is `-2 x - 6`. -/
def loner : Pool ChaCha.Stream :=
  let drawn := drawFormulas 4 1 (ChaCha.Stream.ofSeed 42)
  ⟨⟨1, 4, .half⟩, drawn.1, .empty, drawn.2, 0, nofun⟩

/-- The same pool with an example that the formula misses by one, so that its fitness is one
half. -/
def nearMiss : Pool ChaCha.Stream := loner.after [.addExample ⟨1, -7⟩]

/-- One round of training reports the half that it reached. -/
theorem training_failure_report_of_improvement :
    let nineTenths : Binary64 := ⟨0x3feccccccccccccd⟩
    ∃ fitness left,
      nearMiss.trainUntil nineTenths 1 1 = (.error (.notConverged 1 fitness), left) ∧
      fitness = .half ∧ ∃ f ∈ left.formulas, f.fitness = .half := by
  intro nineTenths
  have hscore : (nearMiss.roundAfter 1 0).score 1 = .half := by decide +kernel
  have himproves : (nearMiss.roundAfter 1 0).stagnates 1 = false := by decide +kernel
  have hfailed : (nearMiss.trainUntil nineTenths 1 1).1 = .error (.notConverged 1 .half) := by
    decide +kernel
  obtain ⟨left, hend⟩ : ∃ left,
      nearMiss.trainUntil nineTenths 1 1 = (.error (.notConverged 1 .half), left) := by
    rw [← hfailed]
    exact ⟨_, Prod.mk.eta.symm⟩
  obtain ⟨-, -, hreport, -⟩ := training_failure_report nearMiss nineTenths 1 1 1 .half left
    (by decide) (by decide) (by decide) hend
  obtain ⟨-, hmem⟩ := hreport.mpr (.inl himproves)
  rw [hscore] at hmem
  exact ⟨.half, left, hend, rfl, hmem⟩

/-- **The report can lose what training achieved.** The pool of one formula has an elite with
a fitness of one half in the first round of training, and again in the second. Training gives
up after that, reports zero, and leaves nobody with a score. -/
theorem training_failure_loses_elite :
    let nineTenths : Binary64 := ⟨0x3feccccccccccccd⟩
    Fresh ⟨1, 4, .half⟩ loner ∧ (nearMiss.tick 1).1.bestFitness = .half ∧
    ((nearMiss.tick 1).2.tick 1).1.bestFitness = .half ∧
    (nearMiss.trainUntil nineTenths 1 2).1 = .error (.notConverged 2 .zero) ∧
    (nearMiss.trainUntil nineTenths 1 2).2.generation = 2 ∧
    ∀ f ∈ (nearMiss.trainUntil nineTenths 1 2).2.formulas, f.fitness = .zero := by
  intro nineTenths
  have fresh : Fresh ⟨1, 4, .half⟩ loner := ⟨.ofSeed 42, .inl rfl⟩
  refine ⟨fresh, ?_, ?_, ?_, ?_, ?_⟩ <;> decide +kernel

end AffineSwarm.Pool
