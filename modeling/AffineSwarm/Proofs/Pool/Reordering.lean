import AffineSwarm.Pool.Evolution
import AffineSwarm.Proofs.Fitness.Exactness
import AffineSwarm.Random.ChaCha

/-!
# The order of examples

Formulas are scored by exact sums, so the order in which examples were added is of no
consequence. Two pools that differ in it alone give the same scores to the same formulas, so
they have the same elite, replace the same formulas and draw the same words: a generation takes
them to pools that again differ in the order of their examples alone
(`Reordered.nextGeneration`). The same then holds of any number of generations, of training, and
of any calls one after the other (`Reordered.evolveAll`, by induction on the calls).
`scoring_is_exact_and_unordered` puts this beside the exactness that it rests on.
-/

namespace AffineSwarm.Pool

variable {σ : Type}

/-- Two pools that are the same but for the order of their examples. -/
structure Reordered (p q : Pool σ) : Prop where
  config_eq : p.config = q.config
  formulas_eq : p.formulas = q.formulas
  stream_eq : p.stream = q.stream
  generation_eq : p.generation = q.generation
  examples_perm : p.examples.items.Perm q.examples.items

theorem reordered_withExamples (p : Pool σ) {examples : ExampleRing}
    (h : p.examples.items.Perm examples.items) : Reordered p { p with examples } :=
  ⟨rfl, rfl, rfl, rfl, h⟩

/-- The second pool is the first with other examples. -/
theorem Reordered.eq_withExamples {p q : Pool σ} (h : Reordered p q) :
    q = { p with examples := q.examples } := by
  obtain ⟨hconfig, hformulas, hstream, hgeneration, -⟩ := h
  cases p
  cases q
  cases hconfig
  cases hformulas
  cases hstream
  cases hgeneration
  rfl

theorem Reordered.best_eq {p q : Pool σ} (h : Reordered p q) : p.best = q.best := by
  rw [h.eq_withExamples]
  rfl

theorem Reordered.isEmpty_eq {p q : Pool σ} (h : Reordered p q) :
    p.examples.isEmpty = q.examples.isEmpty :=
  h.examples_perm.isEmpty_eq

/-- Each formula has the same fitness in both pools, because its errors have the same sum. -/
theorem Reordered.evaluated_eq {p q : Pool σ} (h : Reordered p q) : p.evaluated = q.evaluated := by
  rw [evaluated, evaluated, ← h.formulas_eq]
  refine List.map_congr_left fun f _ => ?_
  rw [f.evaluate_perm h.examples_perm p.examples.length_le]

variable [WordStream σ]

-- ---------------------------------------------------------------------------
-- Generations and rounds
-- ---------------------------------------------------------------------------

/-- One generation: the same elite, the same replacements, the same draws. -/
theorem Reordered.nextGeneration {p q : Pool σ} (h : Reordered p q) :
    Reordered p.nextGeneration.pool q.nextGeneration.pool ∧
      p.nextGeneration.bestFitness = q.nextGeneration.bestFitness ∧
      p.nextGeneration.replaced = q.nextGeneration.replaced := by
  unfold Pool.nextGeneration
  simp only [h.evaluated_eq, h.config_eq, h.stream_eq, h.generation_eq, and_true]
  exact ⟨rfl, rfl, rfl, rfl, h.examples_perm⟩

theorem Reordered.generationsFrom {p q : Pool σ} (h : Reordered p q) (n : Nat)
    (report : TickReport) :
    (generationsFrom n report p).1 = (generationsFrom n report q).1 ∧
      Reordered (generationsFrom n report p).2 (generationsFrom n report q).2 := by
  induction n generalizing report p q with
  | zero => exact ⟨rfl, h⟩
  | succ n ih =>
    obtain ⟨hnext, hbest, hreplaced⟩ := h.nextGeneration
    simp only [Pool.generationsFrom, hbest, hreplaced]
    exact ih hnext _

theorem Reordered.tick {p q : Pool σ} (h : Reordered p q) (generations : Nat) :
    (p.tick generations).1 = (q.tick generations).1 ∧
      Reordered (p.tick generations).2 (q.tick generations).2 := by
  rw [Pool.tick, Pool.tick, h.isEmpty_eq, h.best_eq]
  split
  · exact ⟨rfl, h⟩
  · exact h.generationsFrom _ _

theorem Reordered.reseed {p q : Pool σ} (h : Reordered p q) : Reordered p.reseed q.reseed := by
  unfold Pool.reseed
  simp only [h.config_eq, h.formulas_eq, h.stream_eq, h.generation_eq]
  exact ⟨rfl, rfl, rfl, rfl, h.examples_perm⟩

theorem Reordered.trainFrom {p q : Pool σ} (h : Reordered p q) (target : Binary64)
    (generations maxRounds rounds : Nat) (lastBest : Binary64) :
    (trainFrom target generations maxRounds rounds lastBest p).1 =
        (trainFrom target generations maxRounds rounds lastBest q).1 ∧
      Reordered (trainFrom target generations maxRounds rounds lastBest p).2
        (trainFrom target generations maxRounds rounds lastBest q).2 := by
  induction rounds generalizing lastBest p q with
  | zero =>
    rw [Pool.trainFrom, Pool.trainFrom, h.best_eq]
    exact ⟨rfl, h⟩
  | succ rounds ih =>
    obtain ⟨hreport, hticked⟩ := h.tick generations
    simp only [Pool.trainFrom, hreport]
    -- whether the round ends the training, stagnates or goes on is read off its report
    split
    · rw [hticked.best_eq]
      exact ⟨rfl, hticked⟩
    · split
      · exact ih hticked.reseed _
      · exact ih hticked _

theorem Reordered.trainUntil {p q : Pool σ} (h : Reordered p q) (target : Binary64)
    (generations rounds : Nat) :
    (p.trainUntil target generations rounds).1 = (q.trainUntil target generations rounds).1 ∧
      Reordered (p.trainUntil target generations rounds).2
        (q.trainUntil target generations rounds).2 := by
  rw [Pool.trainUntil, Pool.trainUntil, h.isEmpty_eq, h.best_eq]
  split
  · exact ⟨rfl, h⟩
  · exact h.trainFrom ..

-- ---------------------------------------------------------------------------
-- Calls
-- ---------------------------------------------------------------------------

/-- A call that lets a pool evolve. -/
inductive Evolution where
  | tick (generations : Nat)
  | trainUntil (target : Binary64) (generations rounds : Nat)

/-- What such a call reports. -/
inductive Outcome where
  | ticked (report : TickReport)
  | trained (result : Except PoolError Formula)

/-- Make one call. -/
def evolve (p : Pool σ) : Evolution → Outcome × Pool σ
  | .tick generations =>
    let (report, p) := p.tick generations
    (.ticked report, p)
  | .trainUntil target generations rounds =>
    let (result, p) := p.trainUntil target generations rounds
    (.trained result, p)

/-- Make calls one after the other: what each of them reports, and the pool at the end. -/
def evolveAll : List Evolution → Pool σ → List Outcome × Pool σ
  | [], p => ([], p)
  | call :: rest, p =>
    let (outcome, p) := p.evolve call
    let (outcomes, p) := evolveAll rest p
    (outcome :: outcomes, p)

theorem Reordered.evolve {p q : Pool σ} (h : Reordered p q) (call : Evolution) :
    (p.evolve call).1 = (q.evolve call).1 ∧ Reordered (p.evolve call).2 (q.evolve call).2 := by
  cases call with
  | tick generations =>
    obtain ⟨hreport, hafter⟩ := h.tick generations
    exact ⟨congrArg Outcome.ticked hreport, hafter⟩
  | trainUntil target generations rounds =>
    obtain ⟨hresult, hafter⟩ := h.trainUntil target generations rounds
    exact ⟨congrArg Outcome.trained hresult, hafter⟩

theorem Reordered.evolveAll {p q : Pool σ} (h : Reordered p q) (calls : List Evolution) :
    (evolveAll calls p).1 = (evolveAll calls q).1 ∧
      Reordered (evolveAll calls p).2 (evolveAll calls q).2 := by
  induction calls generalizing p q with
  | nil => exact ⟨rfl, h⟩
  | cons call rest ih =>
    obtain ⟨houtcome, hafter⟩ := h.evolve call
    obtain ⟨houtcomes, hend⟩ := ih hafter
    simp only [Pool.evolveAll, houtcome, houtcomes]
    exact ⟨trivial, hend⟩

-- ---------------------------------------------------------------------------
-- Exact and unordered
-- ---------------------------------------------------------------------------

/--
**Scoring is exact, and the order of examples is of no consequence**. The value of an affine
function is computed in 64-bit words without overflow and is then the nearest 32-bit integer. On
at most 32 examples each distance, computed in words, is the distance, a whole number below
`2^53`; so is each partial sum, and the double that stands for the sum is that number, in
whatever order the examples come. Two pools that differ in the order of their examples alone
then answer any calls alike: same reports and results, and at the end same members and same
random stream.
-/
theorem scoring_is_exact_and_unordered
    (c : Coefficients) (input : Int32)
    (f : Formula) (examples : List Example) (few : examples.length ≤ 32)
    (p q : Pool σ) (same : Reordered p q) (calls : List Evolution) :
    ((c.slope.toInt64 * input.toInt64).toInt = c.slope.toInt * input.toInt ∧
      (c.wide input).toInt = c.slope.toInt * input.toInt + c.bias.toInt ∧
      Coefficients.narrow (c.wide input) = c.apply input ∧
      (c.apply input).toInt = max Int32.minValue.toInt
        (min Int32.maxValue.toInt (c.slope.toInt * input.toInt + c.bias.toInt))) ∧
    (∀ e ∈ examples,
      ((f.apply e.input).toInt64 - e.target.toInt64).toInt =
        (f.apply e.input).toInt - e.target.toInt ∧
      (f.wordError e).toNat = f.absError e ∧ f.absError e < 9007199254740992) ∧
    (∀ k, f.errorSum (examples.take k) < 9007199254740992 ∧
      (f.totalError (examples.take k)).IsWhole (f.errorSum (examples.take k))) ∧
    (∀ examples', examples.Perm examples' → f.totalError examples' = f.totalError examples) ∧
    (evolveAll calls p).1 = (evolveAll calls q).1 ∧
    Reordered (evolveAll calls p).2 (evolveAll calls q).2 := by
  refine ⟨?_, ?_, ?_, ?_, same.evolveAll calls⟩
  · exact ⟨Coefficients.toInt_product .., c.toInt_wide input, c.narrow_wide input,
      c.toInt_apply input⟩
  · intro e _
    exact ⟨f.toInt_difference e, f.toNat_wordError e, Nat.lt_trans (f.absError_lt e) (by decide)⟩
  · intro k
    have hfew : (examples.take k).length ≤ maxExamples :=
      Nat.le_trans (List.length_take_le' k examples) few
    have hlt := Formula.errorSum_lt hfew f
    rw [Formula.totalError_eq hfew]
    exact ⟨hlt, Binary64.isWhole_ofNat hlt⟩
  · intro examples' hperm
    exact (Formula.totalError_perm hperm few f).symm

/-- Two extreme examples in either order: a pool of the standard size is trained and ticked. -/
theorem scoring_is_exact_and_unordered_of_swapped :
    let lowest : Coefficients := ⟨Int32.minValue, Int32.minValue⟩
    let first : Example := ⟨Int32.maxValue, Int32.minValue⟩
    let second : Example := ⟨Int32.minValue, Int32.maxValue⟩
    let p : Pool ChaCha.Stream :=
      { standard (.ofSeed 42) with examples := ⟨[first, second], by decide⟩ }
    let q : Pool ChaCha.Stream := { p with examples := ⟨[second, first], by decide⟩ }
    let calls : List Evolution := [.trainUntil .one 3 5, .tick 2]
    Reordered p q ∧ p.examples ≠ q.examples ∧
    (lowest.wide Int32.minValue).toInt = 4611686016279904256 ∧
    lowest.apply Int32.minValue = Int32.maxValue ∧
    p.best.totalError [second, first] = p.best.totalError [first, second] ∧
    (evolveAll calls p).1 = (evolveAll calls q).1 ∧
    (evolveAll calls p).2.formulas = (evolveAll calls q).2.formulas ∧
    (evolveAll calls p).2.stream = (evolveAll calls q).2.stream := by
  intro lowest first second p q calls
  have swapped : [first, second].Perm [second, first] := .swap second first []
  have same : Reordered p q := p.reordered_withExamples swapped
  obtain ⟨⟨-, hwide, -, happly⟩, -, -, hsum, houtcomes, hend⟩ :=
    scoring_is_exact_and_unordered lowest Int32.minValue p.best [first, second] (by decide)
      p q same calls
  exact ⟨same, by decide, hwide, Int32.toInt_inj.mp happly, hsum _ swapped, houtcomes,
    hend.formulas_eq, hend.stream_eq⟩

end AffineSwarm.Pool
