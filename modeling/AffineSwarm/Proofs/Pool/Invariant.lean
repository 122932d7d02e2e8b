import AffineSwarm.Proofs.Binary64.Order
import AffineSwarm.Proofs.Gene.Heredity
import AffineSwarm.Proofs.Gene.Slots
import AffineSwarm.Proofs.Pool.Session
import AffineSwarm.Random.ChaCha

/-!
# What holds of every pool

The population never changes its size, fitnesses stay in `[0, 1]` and feedbacks in
`[-1, 1]`, and no call makes a NaN of either. A gene has the length that the pool seeds
or that of an immigrant. The examples are those that were added and not cleared.

`Holds` puts these facts into one invariant. Each way in which a pool changes has one
lemma that it preserves the invariant (`Holds.setFormula`, `Holds.nextGeneration`,
`Holds.reseed`, …); the loops follow by induction, then the calls (`Holds.perform`) and
the sessions (`session_invariant`).
-/

namespace AffineSwarm

-- ---------------------------------------------------------------------------
-- Members
-- ---------------------------------------------------------------------------

/-- A formula that a pool may have: its scores are numbers in their bounds, and its gene
has one of some lengths. -/
structure Formula.IsMember (lengths : Nat → Prop) (f : Formula) : Prop where
  fitness_within : Binary64.Within .zero .one f.fitness
  feedback_within : Binary64.Within .minusOne .one f.feedback
  length_mem : lengths f.gene.length

namespace Formula

variable {lengths : Nat → Prop} {f : Formula}

theorem isMember_ofGene {gene : Gene} (h : lengths gene.length) :
    (ofGene gene).IsMember lengths where
  fitness_within := show Binary64.Within .zero .one .zero by decide
  feedback_within := show Binary64.Within .minusOne .one .zero by decide
  length_mem := h

theorem isMember_withFitness {gene : Gene} (h : lengths gene.length) (x : Binary64) :
    (withFitness gene x).IsMember lengths where
  fitness_within := Binary64.within_clampUnit x
  feedback_within := show Binary64.Within .minusOne .one .zero by decide
  length_mem := h

theorem IsMember.evaluated (h : f.IsMember lengths) (examples : List Example) :
    IsMember lengths { f with fitness := f.evaluate examples } :=
  ⟨Binary64.within_clampUnit _, h.feedback_within, h.length_mem⟩

/-- The feedback stays a number because it was one and a finite number is added. -/
theorem IsMember.shifted (h : f.IsMember lengths) {delta : Binary64}
    (finite : delta.isFinite = true) : (Pool.shifted f delta).IsMember lengths := by
  have hsum : (f.feedback.add delta).isNaN = false :=
    Binary64.isNaN_add h.feedback_within.1 finite
  exact ⟨Binary64.within_clampUnit _,
    Binary64.within_clamp (by decide) (by decide) (by decide) hsum, h.length_mem⟩

end Formula

namespace Gene

variable {σ : Type} [WordStream σ]

theorem length_random {n : Nat} (h : n ≤ maxGeneLength) (s : σ) : (random n s).1.length = n := by
  rw [length, random]
  simp only [length_drawDigits]
  exact Nat.min_eq_left h

end Gene

theorem firstBest_go_mem (index : Nat) (best : Nat × Formula) (fs : List Formula) :
    (firstBest.go index best fs).2 = best.2 ∨ (firstBest.go index best fs).2 ∈ fs := by
  induction fs generalizing index best with
  | nil => exact .inl rfl
  | cons f rest ih =>
    rw [firstBest.go]
    by_cases hlt : best.2.fitness.lt f.fitness = true
    · rw [if_pos hlt]
      rcases ih (index + 1) (index, f) with h | h
      · exact .inr (h ▸ List.mem_cons_self)
      · exact .inr (List.mem_cons_of_mem _ h)
    · rw [if_neg hlt]
      exact (ih (index + 1) best).imp_right (List.mem_cons_of_mem _)

theorem firstBest_mem (first : Formula) (rest : List Formula) :
    (firstBest first rest).2 ∈ first :: rest := by
  rcases firstBest_go_mem 1 (0, first) rest with h | h
  · exact List.mem_cons.mpr (.inl h)
  · exact List.mem_cons_of_mem _ h

namespace Pool

variable {σ : Type} {config : PoolConfig} {lengths : Nat → Prop} {examples : List Example}
  {p : Pool σ}

theorem best_mem (p : Pool σ) : p.best ∈ p.formulas := by
  have hmem := firstBest_mem (p.formulas.head p.formulas_ne) p.formulas.tail
  rwa [List.cons_head_tail] at hmem

-- ---------------------------------------------------------------------------
-- The invariant
-- ---------------------------------------------------------------------------

/-- What the calls preserve, for a set of gene lengths that the seeded one is in. -/
structure Holds (config : PoolConfig) (lengths : Nat → Prop) (examples : List Example)
    (p : Pool σ) : Prop where
  config_eq : p.config = config
  geneLength_le : config.geneLength ≤ maxGeneLength
  geneLength_mem : lengths config.geneLength
  size_eq : p.size = config.population
  examples_eq : p.examples.items = examples
  member : ∀ f ∈ p.formulas, f.IsMember lengths

theorem Holds.setFormula (h : Holds config lengths examples p) (slot : Nat) {f : Formula}
    (hf : f.IsMember lengths) : Holds config lengths examples (p.setFormula slot f) where
  config_eq := h.config_eq
  geneLength_le := h.geneLength_le
  geneLength_mem := h.geneLength_mem
  size_eq := by
    rw [size, Pool.setFormula, List.length_set]
    exact h.size_eq
  examples_eq := h.examples_eq
  member f' hmem := by
    rcases List.mem_or_eq_of_mem_set hmem with hold | rfl
    · exact h.member f' hold
    · exact hf

theorem mem_of_lookup {gene : Gene} {slot : Nat} {f : Formula}
    (h : p.lookup gene = some (slot, f)) : f ∈ p.formulas := by
  rw [lookup] at h
  simp only [Option.bind_eq_bind, Option.bind_eq_some_iff] at h
  obtain ⟨slot', -, f', hget, heq⟩ := h
  cases heq
  exact List.mem_of_getElem? hget

theorem Holds.feedback (h : Holds config lengths examples p) {gene : Gene} {delta : Binary64}
    {f : Formula} {p' : Pool σ} (hp : p.feedback gene delta = .ok (f, p')) :
    Holds config lengths examples p' := by
  rw [Pool.feedback] at hp
  split at hp
  · cases hp
  · rename_i finite
    split at hp
    · cases hp
    · rename_i slot f' hlookup
      cases hp
      have hmember := h.member f' (mem_of_lookup hlookup)
      exact h.setFormula slot (hmember.shifted (by simpa using finite))

theorem Holds.absorb (h : Holds config lengths examples p) {f : Formula}
    (hf : lengths f.gene.length) : Holds config lengths examples (p.absorb f).2 := by
  rw [Pool.absorb]
  split
  · exact h
  · exact h.setFormula _ (Formula.isMember_withFitness hf f.fitness)

theorem Holds.addExample (h : Holds config lengths examples p) {e : Example} {p' : Pool σ}
    (hp : p.addExample e = .ok p') : Holds config lengths (examples ++ [e]) p' := by
  rw [Pool.addExample] at hp
  split at hp
  · rename_i ring hpush
    cases hp
    rw [ExampleRing.push?] at hpush
    split at hpush
    · cases hpush
      exact { h with examples_eq := by rw [← h.examples_eq] }
    · cases hpush
  · cases hp

theorem Holds.clearExamples (h : Holds config lengths examples p) :
    Holds config lengths [] p.clearExamples :=
  { h with examples_eq := rfl }

variable [WordStream σ]

-- ---------------------------------------------------------------------------
-- Seeding
-- ---------------------------------------------------------------------------

theorem isMember_drawFormulas {geneLength : Nat} (hle : geneLength ≤ maxGeneLength)
    (hlengths : lengths geneLength) (count : Nat) (s : σ) :
    ∀ f ∈ (drawFormulas geneLength count s).1, f.IsMember lengths := by
  induction count generalizing s with
  | zero => exact fun f hf => absurd hf List.not_mem_nil
  | succ count ih =>
    intro f hf
    rcases List.mem_cons.mp hf with rfl | hrest
    · have hdrawn := Gene.length_random hle s
      exact Formula.isMember_ofGene (hdrawn.symm ▸ hlengths)
    · exact ih _ f hrest

theorem geneLength_le_of_validate {c : PoolConfig} (h : c.validate = .ok ()) :
    c.geneLength ≤ maxGeneLength := by
  refine Nat.le_of_not_lt fun hlong => ?_
  rw [PoolConfig.validate] at h
  split at h
  · cases h
  · rw [if_pos (.inr hlong)] at h
    cases h

/-- A pool that was just made. -/
theorem Fresh.holds (fresh : Fresh config p) (hlengths : lengths config.geneLength) :
    Holds config lengths [] p := by
  obtain ⟨s, hmade | ⟨rfl, rfl⟩⟩ := fresh
  · rw [ofConfig?] at hmade
    split at hmade
    · cases hmade
    · rename_i hvalid
      cases hmade
      have hle := geneLength_le_of_validate hvalid
      exact ⟨rfl, hle, hlengths, length_drawFormulas .., rfl,
        isMember_drawFormulas hle hlengths _ s⟩
  · have hle : PoolConfig.standard.geneLength ≤ maxGeneLength := by decide
    exact ⟨rfl, hle, hlengths, length_drawFormulas .., rfl,
      isMember_drawFormulas hle hlengths _ s⟩

theorem Holds.reseed (h : Holds config lengths examples p) :
    Holds config lengths examples p.reseed where
  config_eq := h.config_eq
  geneLength_le := h.geneLength_le
  geneLength_mem := h.geneLength_mem
  size_eq := by
    rw [size, Pool.reseed, length_drawFormulas]
    exact h.size_eq
  examples_eq := h.examples_eq
  member := by
    have hdrawn := isMember_drawFormulas h.geneLength_le h.geneLength_mem p.formulas.length p.stream
    rwa [← h.config_eq] at hdrawn

-- ---------------------------------------------------------------------------
-- Generations
-- ---------------------------------------------------------------------------

/-- Culling leaves formulas that were there and mutants of the gene. -/
theorem isMember_cull {threshold : Binary64} {gene : Gene} (hgene : lengths gene.length)
    (elite index : Nat) {fs : List Formula} (hfs : ∀ f ∈ fs, f.IsMember lengths) (s : σ) :
    ∀ f ∈ (cull threshold gene elite index fs s).formulas, f.IsMember lengths := by
  induction fs generalizing index s with
  | nil => exact fun f hf => absurd hf List.not_mem_nil
  | cons f rest ih =>
    obtain ⟨hf, hrest⟩ := List.forall_mem_cons.mp hfs
    rw [cull]
    split
    · refine List.forall_mem_cons.mpr ⟨Formula.isMember_ofGene ?_, ih _ hrest _⟩
      rwa [(gene.isMutant_mutate s).length_eq]
    · exact List.forall_mem_cons.mpr ⟨hf, ih _ hrest _⟩

theorem Holds.nextGeneration (h : Holds config lengths examples p) :
    Holds config lengths examples p.nextGeneration.pool := by
  have hscored : ∀ f ∈ p.evaluated, f.IsMember lengths := by
    intro f hf
    obtain ⟨f', hf', rfl⟩ := List.mem_map.mp hf
    exact (h.member f' hf').evaluated _
  refine ⟨h.config_eq, h.geneLength_le, h.geneLength_mem, ?_, h.examples_eq, ?_⟩
  · rw [size, Pool.nextGeneration]
    simp only [length_cull, evaluated, List.length_map]
    exact h.size_eq
  · -- the elite is one of the scored formulas, so its mutants have a length of theirs
    refine isMember_cull (hscored _ ?_).length_mem _ _ hscored _
    have := firstBest_mem (p.evaluated.head p.evaluated_ne) p.evaluated.tail
    rwa [List.cons_head_tail] at this

theorem Holds.generationsFrom (h : Holds config lengths examples p) (n : Nat)
    (report : TickReport) : Holds config lengths examples (generationsFrom n report p).2 := by
  induction n generalizing report p with
  | zero => exact h
  | succ n ih => exact ih h.nextGeneration _

theorem Holds.tick (h : Holds config lengths examples p) (generations : Nat) :
    Holds config lengths examples (p.tick generations).2 := by
  rw [Pool.tick]
  split
  · exact h
  · exact h.generationsFrom _ _

theorem Holds.trainFrom (h : Holds config lengths examples p) (target : Binary64)
    (generations maxRounds rounds : Nat) (lastBest : Binary64) :
    Holds config lengths examples
      (trainFrom target generations maxRounds rounds lastBest p).2 := by
  induction rounds generalizing lastBest p with
  | zero => exact h
  | succ rounds ih =>
    rw [Pool.trainFrom]
    have hticked := h.tick generations
    simp only
    split
    · exact hticked
    · split
      · exact ih hticked.reseed _
      · exact ih hticked _

theorem Holds.trainUntil (h : Holds config lengths examples p) (target : Binary64)
    (generations rounds : Nat) :
    Holds config lengths examples (p.trainUntil target generations rounds).2 := by
  rw [Pool.trainUntil]
  split
  · exact h
  · exact h.trainFrom ..

-- ---------------------------------------------------------------------------
-- Sessions
-- ---------------------------------------------------------------------------

/-- One call preserves the invariant, whether it succeeds or not. -/
theorem Holds.perform (h : Holds config lengths examples p) (c : Command)
    (habsorb : ∀ f, c = .absorb f → lengths f.gene.length) :
    Holds config lengths (Call.keep examples ⟨c, (p.perform c).1⟩) (p.perform c).2 := by
  cases c with
  | addExample e =>
    simp only [Pool.perform]
    split
    · rename_i hp
      exact h.addExample hp
    · exact h
  | clearExamples => exact h.clearExamples
  | tick generations => exact h.tick generations
  | feedback gene delta =>
    simp only [Pool.perform]
    split
    · rename_i hp
      exact h.feedback hp
    · exact h
  | absorb f => exact h.absorb (habsorb f rfl)
  | trainUntil target generations rounds => exact h.trainUntil target generations rounds

/-- The invariant of sessions, by induction on the calls. -/
theorem Holds.run {session : Session σ}
    (h : Holds config lengths (keptExamples session.calls) session.pool)
    {commands : List Command} (habsorb : ∀ f, .absorb f ∈ commands → lengths f.gene.length) :
    Holds config lengths (keptExamples (session.run commands).calls)
      (session.run commands).pool := by
  induction commands generalizing session with
  | nil => exact h
  | cons c rest ih =>
    have hcall : Holds config lengths (keptExamples (session.call c).calls)
        (session.call c).pool := by
      have := h.perform c fun f hc => habsorb f (hc ▸ List.mem_cons_self)
      rwa [← keptExamples_append] at this
    exact ih hcall fun f hf => habsorb f (List.mem_cons_of_mem _ hf)

/-- A pool that is reached keeps the invariant, with genes of any length. -/
theorem Reachable.holds (h : Reachable p) :
    ∃ config examples, Holds config (fun _ => True) examples p := by
  obtain ⟨config, fresh, commands, hfresh, rfl⟩ := h
  have hstart : Holds config (fun _ => True) (keptExamples (Session.ofPool fresh).calls)
      (Session.ofPool fresh).pool := hfresh.holds trivial
  exact ⟨config, _, hstart.run fun _ _ => trivial⟩

theorem Reachable.fitness_within (h : Reachable p) :
    ∀ f ∈ p.formulas, Binary64.Within .zero .one f.fitness := by
  obtain ⟨config, examples, holds⟩ := h.holds
  intro f hf
  exact (holds.member f hf).fitness_within

/-- **What holds of every pool that is reached.** From a fresh pool, whatever calls are
made and whether they succeed: the population keeps its size; fitnesses are numbers in
`[0, 1]` and feedbacks numbers in `[-1, 1]`; a gene fills 32 slots with digits and then
zeros, and has the length that is seeded or that of an immigrant; the examples are those
that were added since the last clearing, in order, and at most 32. -/
theorem session_invariant (p : Pool σ) (fresh : Fresh config p) (commands : List Command) :
    let session := (Session.ofPool p).run commands
    session.pool.size = config.population ∧
    (∀ f ∈ session.pool.formulas,
      f.fitness.isNaN = false ∧ Binary64.zero.le f.fitness ∧ f.fitness.le .one ∧
      f.feedback.isNaN = false ∧ Binary64.minusOne.le f.feedback ∧ f.feedback.le .one) ∧
    (∀ f ∈ session.pool.formulas, f.gene.length ≤ 32 ∧ f.gene.padded.length = 32 ∧
      (∀ slot ∈ f.gene.padded.take f.gene.length, slot ≤ 9) ∧
      (∀ slot ∈ f.gene.padded.drop f.gene.length, slot = 0)) ∧
    session.pool.examples.items = keptExamples session.calls ∧
    session.pool.examples.length ≤ 32 ∧
    (∀ f ∈ session.pool.formulas, f.gene.length = config.geneLength ∨
      ∃ immigrant, .absorb immigrant ∈ commands ∧
        f.gene.length = immigrant.gene.length) := by
  intro session
  let lengths : Nat → Prop := fun n =>
    n = config.geneLength ∨ ∃ immigrant, .absorb immigrant ∈ commands ∧ n = immigrant.gene.length
  have hstart : Holds config lengths (keptExamples (Session.ofPool p).calls)
      (Session.ofPool p).pool := fresh.holds (.inl rfl)
  have h : Holds config lengths (keptExamples session.calls) session.pool :=
    hstart.run fun f hf => .inr ⟨f, hf, rfl⟩
  refine ⟨h.size_eq, fun f hf => ?_, fun f _ => ⟨f.gene.length_le, f.gene.length_padded, ?_, ?_⟩,
    h.examples_eq, session.pool.examples.length_le, fun f hf => (h.member f hf).length_mem⟩
  · obtain ⟨⟨hnan, hzero, hone⟩, ⟨hnan', hminus, hone'⟩, -⟩ := h.member f hf
    exact ⟨hnan, hzero, hone, hnan', hminus, hone'⟩
  · exact f.gene.le_of_mem_take_padded
  · exact f.gene.eq_zero_of_mem_drop_padded

/-- A pool with an immigrant that claims an infinite fitness and has no digit. -/
theorem session_invariant_of_immigrant :
    let p : Pool ChaCha.Stream := standard (.ofSeed 42)
    let commands : List Command :=
      [.addExample ⟨1, 3⟩, .absorb ⟨.empty, .infinity false, .nan⟩, .tick 2]
    Fresh .standard p ∧
    ((Session.ofPool p).run commands).pool.size = 16 ∧
    ∀ f ∈ ((Session.ofPool p).run commands).pool.formulas, f.fitness.isNaN = false := by
  intro p commands
  have fresh : Fresh .standard p := ⟨.ofSeed 42, .inr ⟨rfl, rfl⟩⟩
  obtain ⟨hsize, hscores, -⟩ := session_invariant p fresh commands
  exact ⟨fresh, hsize, fun f hf => (hscores f hf).1⟩

end Pool

end AffineSwarm
