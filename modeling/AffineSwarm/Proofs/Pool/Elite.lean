import AffineSwarm.Proofs.Pool.Invariant
import AffineSwarm.Proofs.Pool.Ranking
import Mathlib.Data.Finset.Card

/-!
# The elite

While the examples stay the same, ticks and immigrants do not lose the elite: from the end
of one tick to the start of the next it keeps its slot, and what the ticks report as the
best fitness never drops. An immigrant may claim any fitness, so all that protects the
elite is that it outranks all other slots at the end of a tick. Each immigrant replaces the
lowest slot of the ranking, and takes away at most one slot that the elite outranks. So a
population of `n` protects its elite from `n - 1` immigrants, whatever they claim.

`Seated elite spare p` is the invariant: the elite is in its slot with its true score, and
outranks `spare` others. A generation seats its elite above all others
(`seated_nextGeneration`) and scores it no lower than an elite that was seated before
(`Seated.le_nextGeneration`); an immigrant costs at most one spare (`Seated.absorb`).

## Results

* `seated_tick`, `scores_pairwise` — what one tick does.
* `Seated.after_absorbs` — what the immigrants between two ticks do.
* `elite_survives` — both, along any sequence of ticks and immigrants.
-/

namespace AffineSwarm

theorem Binary64.le_trans {x y z : Binary64} (hxy : x.le y = true) (hyz : y.le z = true) :
    x.le z = true := by
  rw [le_iff] at hxy hyz ⊢
  exact ⟨hxy.1, hyz.2.1, Int.le_trans hxy.2.2 hyz.2.2⟩

theorem Binary64.Within.order_nonneg {x : Binary64} (h : Within .zero .one x) : 0 ≤ x.order := by
  have hzero : Binary64.zero.order = 0 := rfl
  have horder := (le_iff.mp h.2.1).2.2
  omega

theorem numbered_of_within {fs : List Formula}
    (h : ∀ f ∈ fs, Binary64.Within .zero .one f.fitness) : Numbered fs :=
  fun f hf => (h f hf).1

namespace Pool

variable {σ : Type}

-- ---------------------------------------------------------------------------
-- The invariant
-- ---------------------------------------------------------------------------

/-- An elite in its slot with the score that it has on the examples, in a population in
which it outranks some number of slots. -/
structure Seated (elite : Nat × Formula) (spare : Nat) (p : Pool σ) : Prop where
  get : p.formulas[elite.1]? = some elite.2
  score : elite.2.fitness = elite.2.evaluate p.examples.items
  within : ∀ f ∈ p.formulas, Binary64.Within .zero .one f.fitness
  outranked : ∃ slots : Finset Nat, spare ≤ slots.card ∧
    ∀ i ∈ slots, ∃ f, p.formulas[i]? = some f ∧ Outranks elite (i, f)

variable {elite : Nat × Formula} {spare : Nat} {p : Pool σ}

-- ---------------------------------------------------------------------------
-- Immigrants
-- ---------------------------------------------------------------------------

/-- Taking in a formula changes nothing or replaces the worst formula. -/
theorem absorb_eq (p : Pool σ) (f : Formula) :
    (∃ slot, p.absorb f = (.alreadyPresent slot, p)) ∨
      p.absorb f = (.replaced p.worstEntry.1,
        p.setFormula p.worstEntry.1 (.withFitness f.gene f.fitness)) := by
  rw [absorb]
  cases p.position f.gene with
  | some slot => exact .inl ⟨slot, rfl⟩
  | none => exact .inr rfl

/-- How many of some immigrants replace a formula. -/
def replacements (p : Pool σ) : List Formula → Nat
  | [] => 0
  | f :: rest =>
    match p.absorb f with
    | (.replaced _, p) => p.replacements rest + 1
    | (.alreadyPresent _, p) => p.replacements rest

theorem replacements_le_length (p : Pool σ) (fs : List Formula) :
    p.replacements fs ≤ fs.length := by
  induction fs generalizing p with
  | nil => exact Nat.le_refl _
  | cons f rest ih =>
    rw [replacements, List.length_cons]
    split
    · exact Nat.succ_le_succ (ih _)
    · exact Nat.le_succ_of_le (ih _)

/-- The elite is not the worst formula as long as it outranks another. -/
theorem Seated.worst_ne (h : Seated elite (spare + 1) p) : p.worstEntry.1 ≠ elite.1 := by
  intro hworst
  have hbottom := isBottom_worstEntry (numbered_of_within h.within)
  have heq : p.worstEntry = elite := by
    refine Prod.ext hworst (Option.some.inj ?_)
    rw [← hbottom.get, hworst, h.get]
  obtain ⟨slots, hcard, hslots⟩ := h.outranked
  obtain ⟨i, hi⟩ : slots.Nonempty := Finset.card_pos.mp (by omega)
  obtain ⟨f, hf, houtranks⟩ := hslots i hi
  by_cases hslot : i = elite.1
  · subst hslot
    rw [h.get] at hf
    cases hf
    exact houtranks.irrefl
  · have hbelow : Outranks (i, f) p.worstEntry := hbottom.ahead i f hf (heq ▸ hslot)
    rw [heq] at hbelow
    exact hbelow.asymm houtranks

/-- Replacing the worst formula costs at most one of the slots that the elite outranks. -/
theorem Seated.replace (h : Seated elite (spare + 1) p) (gene : Gene) (claimed : Binary64) :
    Seated elite spare (p.setFormula p.worstEntry.1 (.withFitness gene claimed)) where
  get := by
    rw [setFormula, List.getElem?_set_ne h.worst_ne]
    exact h.get
  score := h.score
  within f hf := by
    rcases List.mem_or_eq_of_mem_set hf with hold | rfl
    · exact h.within f hold
    · exact Binary64.within_clampUnit claimed
  outranked := by
    obtain ⟨slots, hcard, hslots⟩ := h.outranked
    refine ⟨slots.erase p.worstEntry.1, ?_, fun i hi => ?_⟩
    · have herase := Finset.pred_card_le_card_erase (s := slots) (a := p.worstEntry.1)
      omega
    · obtain ⟨hne, hmem⟩ := Finset.mem_erase.mp hi
      obtain ⟨f, hf, houtranks⟩ := hslots i hmem
      refine ⟨f, ?_, houtranks⟩
      rw [setFormula, List.getElem?_set_ne (Ne.symm hne)]
      exact hf

variable [WordStream σ]

/-- The pool that some calls leave. -/
def after (p : Pool σ) (commands : List Command) : Pool σ :=
  ((Session.ofPool p).run commands).pool

theorem Session.run_pool (session : Session σ) (commands : List Command) :
    (session.run commands).pool = session.pool.after commands := by
  induction commands generalizing session with
  | nil => rfl
  | cons c rest ih =>
    have hleft := ih (session.call c)
    have hright := ih ((Session.ofPool session.pool).call c)
    exact hleft.trans hright.symm

theorem after_cons (p : Pool σ) (c : Command) (rest : List Command) :
    p.after (c :: rest) = (p.perform c).2.after rest :=
  Session.run_pool ((Session.ofPool p).call c) rest

theorem after_append (p : Pool σ) (commands more : List Command) :
    p.after (commands ++ more) = (p.after commands).after more := by
  induction commands generalizing p with
  | nil => rfl
  | cons c rest ih => rw [List.cons_append, after_cons, ih, after_cons]

/-- Immigrants cost at most as many spare slots as they replace formulas. -/
theorem Seated.after_absorbs {fs : List Formula} (h : Seated elite spare p)
    (hroom : p.replacements fs ≤ spare) :
    Seated elite (spare - p.replacements fs) (p.after (fs.map .absorb)) := by
  induction fs generalizing p spare with
  | nil => exact h
  | cons f rest ih =>
    rw [List.map_cons, after_cons]
    rw [replacements] at hroom ⊢
    rcases absorb_eq p f with ⟨slot, hpresent⟩ | hreplaced
    · simp only [hpresent, perform] at hroom ⊢
      exact ih h hroom
    · simp only [hreplaced, perform] at hroom ⊢
      obtain ⟨fewer, rfl⟩ : ∃ fewer, spare = fewer + 1 := ⟨spare - 1, by omega⟩
      have hrest := ih (h.replace f.gene f.fitness) (by omega)
      rwa [Nat.add_sub_add_right]

-- ---------------------------------------------------------------------------
-- Generations
-- ---------------------------------------------------------------------------

omit [WordStream σ] in
/-- A scored formula has its score, and it is in `[0, 1]`. -/
theorem score_of_mem_evaluated {f : Formula} (h : f ∈ p.evaluated) :
    f.fitness = f.evaluate p.examples.items ∧ Binary64.Within .zero .one f.fitness := by
  obtain ⟨g, -, rfl⟩ := List.mem_map.mp h
  exact ⟨rfl, Binary64.within_clampUnit _⟩

omit [WordStream σ] in
theorem numbered_evaluated (p : Pool σ) : Numbered p.evaluated :=
  numbered_of_within fun _ hf => (score_of_mem_evaluated hf).2

/-- The elite of a generation: the best of the scored formulas, and its slot. -/
def eliteEntry (p : Pool σ) : Nat × Formula :=
  firstBest (p.evaluated.head p.evaluated_ne) p.evaluated.tail

omit [WordStream σ] in
theorem isTop_evaluated (p : Pool σ) : IsTop p.evaluated p.eliteEntry :=
  isTop_firstBest p.evaluated_ne p.numbered_evaluated

/-- After a generation every fitness is a score, or that of a new mutant. -/
theorem within_nextGeneration (p : Pool σ) :
    ∀ f ∈ p.nextGeneration.pool.formulas, Binary64.Within .zero .one f.fitness := by
  intro g hg
  obtain ⟨i, hi⟩ := List.getElem?_of_mem hg
  obtain ⟨f, hf, hkept⟩ := getElem?_cull hi
  rcases hkept with heq | ⟨-, mutant, rfl⟩
  · rw [heq]
    exact (score_of_mem_evaluated (List.mem_of_getElem? hf)).2
  · exact show Binary64.Within .zero .one .zero by decide

/-- The best formula after a generation is the elite of that generation. -/
theorem bestEntry_nextGeneration (p : Pool σ) :
    p.nextGeneration.pool.bestEntry = p.eliteEntry := by
  have hbest := isTop_bestEntry (numbered_of_within p.within_nextGeneration)
  have hfit : ∀ f ∈ p.evaluated, 0 ≤ f.fitness.order :=
    fun f hf => (score_of_mem_evaluated hf).2.order_nonneg
  exact hbest.unique (p.isTop_evaluated.cull hfit _ _ _)

theorem size_nextGeneration (p : Pool σ) : p.nextGeneration.pool.size = p.size := by
  rw [nextGeneration, size, size]
  simp only [length_cull, evaluated, List.length_map]

/-- What a generation reports is the fitness of the best formula after it. -/
theorem bestFitness_nextGeneration (p : Pool σ) :
    p.nextGeneration.bestFitness = p.nextGeneration.pool.best.fitness := by
  rw [best, bestEntry_nextGeneration]
  rfl

/-- A generation seats its elite above all other slots. -/
theorem seated_nextGeneration (p : Pool σ) :
    Seated p.nextGeneration.pool.bestEntry (p.size - 1) p.nextGeneration.pool := by
  have hbest := isTop_bestEntry (numbered_of_within p.within_nextGeneration)
  have hsize : p.nextGeneration.pool.formulas.length = p.size := p.size_nextGeneration
  refine ⟨hbest.get, ?_, p.within_nextGeneration, ?_⟩
  · rw [bestEntry_nextGeneration]
    exact (score_of_mem_evaluated p.isTop_evaluated.mem).1
  · refine ⟨(Finset.range p.size).erase p.nextGeneration.pool.bestEntry.1, ?_, fun i hi => ?_⟩
    · rw [Finset.card_erase_of_mem (Finset.mem_range.mpr (hsize ▸ hbest.lt_length)),
        Finset.card_range]
    · obtain ⟨hne, hlt⟩ := Finset.mem_erase.mp hi
      rw [Finset.mem_range, ← hsize] at hlt
      exact ⟨_, List.getElem?_eq_getElem hlt,
        hbest.ahead i _ (List.getElem?_eq_getElem hlt) hne⟩

/-- An elite in its slot is scored as before, so the next elite is no worse. -/
theorem Seated.le_nextGeneration (h : Seated elite spare p) :
    elite.2.fitness.le p.nextGeneration.bestFitness = true := by
  have htop := p.isTop_evaluated
  have hget : p.evaluated[elite.1]? =
      some { elite.2 with fitness := elite.2.evaluate p.examples.items } := by
    rw [evaluated, List.getElem?_map, h.get]
    rfl
  have horder := htop.order_le hget
  have helite := h.within elite.2 (List.mem_of_getElem? h.get)
  simp only [← h.score] at horder
  exact Binary64.le_iff.mpr ⟨helite.1, (score_of_mem_evaluated htop.mem).2.1, horder⟩

-- ---------------------------------------------------------------------------
-- Ticks
-- ---------------------------------------------------------------------------

/-- The fitness of the elite in each of some generations. -/
def scores (p : Pool σ) : Nat → List Binary64
  | 0 => []
  | n + 1 => p.nextGeneration.bestFitness :: p.nextGeneration.pool.scores n

/-- No generation scores its elite lower than one that was seated before it. -/
theorem Seated.le_scores (h : Seated elite spare p) (n : Nat) :
    ∀ x ∈ p.scores n, elite.2.fitness.le x = true := by
  induction n generalizing elite spare p with
  | zero => exact nofun
  | succ n ih =>
    intro x hx
    rcases List.mem_cons.mp hx with rfl | hrest
    · exact h.le_nextGeneration
    · have hnext : p.nextGeneration.pool.best.fitness.le x = true :=
        ih p.seated_nextGeneration x hrest
      rw [← bestFitness_nextGeneration] at hnext
      exact Binary64.le_trans h.le_nextGeneration hnext

theorem scores_pairwise (p : Pool σ) (n : Nat) :
    (p.scores n).Pairwise fun x y => x.le y = true := by
  induction n generalizing p with
  | zero => exact .nil
  | succ n ih =>
    refine List.pairwise_cons.mpr ⟨fun x hx => ?_, ih _⟩
    rw [bestFitness_nextGeneration]
    exact p.seated_nextGeneration.le_scores n x hx

/-- After some generations the best formula is the elite of the last one, seated above all
other slots, and its fitness is what is reported. -/
theorem generationsFrom_seated (n : Nat) (report : TickReport) (p : Pool σ) :
    let run := generationsFrom (n + 1) report p
    Seated run.2.bestEntry (p.size - 1) run.2 ∧
      run.1.bestFitness = run.2.best.fitness ∧
      (p.scores (n + 1)).getLast? = some run.2.best.fitness := by
  induction n generalizing report p with
  | zero =>
    have hbest := p.bestFitness_nextGeneration
    exact ⟨p.seated_nextGeneration, hbest, congrArg some hbest⟩
  | succ n ih =>
    obtain ⟨hseated, hreport, hlast⟩ := ih ⟨_, _, _⟩ p.nextGeneration.pool
    rw [size_nextGeneration] at hseated
    refine ⟨hseated, hreport, ?_⟩
    rw [scores, scores, List.getLast?_cons_cons]
    exact hlast

/-- What a tick of a pool with examples leaves and reports. -/
theorem seated_tick {generations : Nat} (hexamples : p.examples.isEmpty = false)
    (hpos : 1 ≤ generations) :
    Seated (p.tick generations).2.bestEntry (p.size - 1) (p.tick generations).2 ∧
      (p.tick generations).1.bestFitness = (p.tick generations).2.best.fitness ∧
      (p.scores generations).getLast? = some (p.tick generations).2.best.fitness := by
  obtain ⟨n, rfl⟩ : ∃ n, generations = n + 1 := ⟨generations - 1, by omega⟩
  rw [tick, hexamples]
  exact generationsFrom_seated n _ p

theorem generationsFrom_keeps (n : Nat) (report : TickReport) (p : Pool σ) :
    (generationsFrom n report p).2.examples = p.examples ∧
      (generationsFrom n report p).2.size = p.size := by
  induction n generalizing report p with
  | zero => exact ⟨rfl, rfl⟩
  | succ n ih =>
    obtain ⟨hexamples, hsize⟩ := ih ⟨_, _, _⟩ p.nextGeneration.pool
    exact ⟨hexamples, hsize.trans p.size_nextGeneration⟩

theorem tick_keeps (p : Pool σ) (generations : Nat) :
    (p.tick generations).2.examples = p.examples ∧ (p.tick generations).2.size = p.size := by
  rw [tick]
  split
  · exact ⟨rfl, rfl⟩
  · exact generationsFrom_keeps _ _ p

-- ---------------------------------------------------------------------------
-- Ticks and immigrants
-- ---------------------------------------------------------------------------

/-- A tick of at least one generation, or an immigrant. -/
def Command.IsTickOrAbsorb : Command → Prop
  | .tick generations => 1 ≤ generations
  | .absorb _ => True
  | _ => False

/-- Ticks and immigrants change neither the examples nor the size of the population. -/
theorem perform_keeps {c : Command} (h : c.IsTickOrAbsorb) (p : Pool σ) :
    (p.perform c).2.examples = p.examples ∧ (p.perform c).2.size = p.size := by
  cases c with
  | tick generations => exact p.tick_keeps generations
  | absorb f =>
    rw [perform]
    rcases absorb_eq p f with ⟨slot, hpresent⟩ | hreplaced
    · rw [hpresent]
      exact ⟨rfl, rfl⟩
    · rw [hreplaced]
      exact ⟨rfl, List.length_set ..⟩
  | _ => exact h.elim

theorem after_keeps {commands : List Command} (h : ∀ c ∈ commands, c.IsTickOrAbsorb)
    (p : Pool σ) :
    (p.after commands).examples = p.examples ∧ (p.after commands).size = p.size := by
  induction commands generalizing p with
  | nil => exact ⟨rfl, rfl⟩
  | cons c rest ih =>
    obtain ⟨hc, hrest⟩ := List.forall_mem_cons.mp h
    obtain ⟨hexamples, hsize⟩ := ih hrest (p.perform c).2
    obtain ⟨hexamples', hsize'⟩ := perform_keeps hc p
    rw [after_cons]
    exact ⟨hexamples.trans hexamples', hsize.trans hsize'⟩

theorem isTickOrAbsorb_absorbs (fs : List Formula) :
    ∀ c ∈ fs.map Command.absorb, c.IsTickOrAbsorb := by
  intro c hc
  obtain ⟨f, -, rfl⟩ := List.mem_map.mp hc
  trivial

/-- Some formulas are all that is absorbed between two ticks that follow each other;
`left` is the pool that the first of the two leaves. -/
def Between (p : Pool σ) (commands : List Command) (left : Pool σ) (fs : List Formula) : Prop :=
  ∃ before generations generations' more,
    commands = before ++ .tick generations :: (fs.map .absorb ++ .tick generations' :: more) ∧
      left = p.after (before ++ [.tick generations])

/-- Between two ticks at most `limit` immigrants replace a formula. -/
def Paced (limit : Nat) (p : Pool σ) (commands : List Command) : Prop :=
  ∀ left fs, Between p commands left fs → left.replacements fs ≤ limit

/-- A tick that was run: what it reported, and the fitness of the elite in each of its
generations. -/
structure Ticked where
  report : TickReport
  scores : List Binary64

/-- The ticks among some calls. -/
def ticks (p : Pool σ) : List Command → List Ticked
  | [] => []
  | .tick generations :: rest =>
    ⟨(p.tick generations).1, p.scores generations⟩ :: ticks (p.tick generations).2 rest
  | c :: rest => ticks (p.perform c).2 rest

/-- Commands cut at the ticks. -/
inductive Course : List Command → Prop
  | absorbs (fs : List Formula) : Course (fs.map .absorb)
  | tick (fs : List Formula) {generations : Nat} (pos : 1 ≤ generations) {rest : List Command}
      (course : Course rest) : Course (fs.map .absorb ++ .tick generations :: rest)

theorem course_of_isTickOrAbsorb {commands : List Command}
    (h : ∀ c ∈ commands, c.IsTickOrAbsorb) : Course commands := by
  induction commands with
  | nil => exact .absorbs []
  | cons c rest ih =>
    obtain ⟨hc, hrest⟩ := List.forall_mem_cons.mp h
    cases c with
    | tick generations => exact .tick [] hc (ih hrest)
    | absorb f =>
      cases ih hrest with
      | absorbs fs => exact .absorbs (f :: fs)
      | tick fs pos course => exact .tick (f :: fs) pos course
    | _ => exact hc.elim

theorem ticks_absorbs (p : Pool σ) (fs : List Formula) (rest : List Command) :
    p.ticks (fs.map .absorb ++ rest) = (p.after (fs.map .absorb)).ticks rest := by
  induction fs generalizing p with
  | nil => rfl
  | cons f fs ih =>
    rw [List.map_cons, List.cons_append, ticks, ih, after_cons]
    exact nofun

-- ---------------------------------------------------------------------------
-- The elite survives
-- ---------------------------------------------------------------------------

/-- What is between two ticks after some calls is between them after more calls. -/
theorem Between.prepend {commands : List Command} {left : Pool σ} {fs : List Formula}
    (earlier : List Command) (h : Between (p.after earlier) commands left fs) :
    Between p (earlier ++ commands) left fs := by
  obtain ⟨before, generations, generations', more, rfl, rfl⟩ := h
  refine ⟨earlier ++ before, generations, generations', more, ?_, ?_⟩
  · rw [List.append_assoc]
  · rw [List.append_assoc, p.after_append earlier]

theorem Paced.rest {limit : Nat} {earlier commands : List Command}
    (h : Paced limit p (earlier ++ commands)) : Paced limit (p.after earlier) commands :=
  fun left fs hbetween => h left fs (hbetween.prepend earlier)

/-- Rising scores stay so if further rising scores are no lower than the last one. -/
theorem pairwise_append_of_last {xs ys : List Binary64} {last : Binary64}
    (hlast : xs.getLast? = some last) (hxs : xs.Pairwise fun x y => x.le y = true)
    (hys : ys.Pairwise fun x y => x.le y = true) (hle : ∀ y ∈ ys, last.le y = true) :
    (xs ++ ys).Pairwise fun x y => x.le y = true := by
  obtain ⟨earlier, rfl⟩ := List.getLast?_eq_some_iff.mp hlast
  refine List.pairwise_append.mpr ⟨hxs, hys, fun x hx y hy => ?_⟩
  rcases List.mem_append.mp hx with hearlier | hx
  · have hxlast := (List.pairwise_append.mp hxs).2.2 x hearlier last (List.mem_singleton.mpr rfl)
    exact Binary64.le_trans hxlast (hle y hy)
  · cases List.mem_singleton.mp hx
    exact hle y hy

/-- Every tick scores its elites no lower than an elite that was seated before, and a later
tick no lower than an earlier one; by induction on the ticks. -/
theorem Course.scores_pairwise {commands : List Command} (course : Course commands)
    (hexamples : p.examples.isEmpty = false) (hpaced : Paced (p.size - 1) p commands) :
    ((p.ticks commands).flatMap Ticked.scores).Pairwise (fun x y => x.le y = true) ∧
    ∀ elite spare, Seated elite spare p →
      (∀ fs generations more, commands = fs.map .absorb ++ .tick generations :: more →
        p.replacements fs ≤ spare) →
      ∀ x ∈ (p.ticks commands).flatMap Ticked.scores, elite.2.fitness.le x = true := by
  induction course generalizing p with
  | absorbs fs =>
    have hnone : p.ticks (fs.map .absorb) = [] := by
      have hticks := p.ticks_absorbs fs []
      rwa [List.append_nil] at hticks
    rw [hnone]
    exact ⟨.nil, fun _ _ _ _ => nofun⟩
  | @tick fs generations pos rest _ ih =>
    -- what the tick finds, and what it leaves
    let found : Pool σ := p.after (fs.map .absorb)
    let left : Pool σ := (found.tick generations).2
    have hafter : p.after (fs.map .absorb ++ [.tick generations]) = left := by
      rw [after_append, after_cons]
      rfl
    obtain ⟨hfoundExamples, hfoundSize⟩ := after_keeps (isTickOrAbsorb_absorbs fs) p
    obtain ⟨hleftExamples, hleftSize⟩ := perform_keeps (c := .tick generations) pos found
    replace hleftExamples : left.examples = p.examples := hleftExamples.trans hfoundExamples
    replace hleftSize : left.size = p.size := hleftSize.trans hfoundSize
    obtain ⟨hseated, -, hlast⟩ := seated_tick (p := found) (by rwa [hfoundExamples]) pos
    rw [hfoundSize] at hseated
    have hpacedLeft : Paced (left.size - 1) left rest := by
      rw [hleftSize, ← hafter]
      refine Paced.rest ?_
      rwa [List.append_assoc]
    obtain ⟨hrest, hlow⟩ := ih (p := left) (by rwa [hleftExamples]) hpacedLeft
    -- the elite of this tick bounds the scores of all later ones
    have hlater := hlow _ _ hseated (by
      rintro fs' generations' more rfl
      exact hpaced left fs' ⟨fs.map .absorb, generations, generations', more, rfl, hafter.symm⟩)
    have hticks : p.ticks (fs.map .absorb ++ .tick generations :: rest) =
        ⟨(found.tick generations).1, found.scores generations⟩ :: left.ticks rest := by
      rw [ticks_absorbs, ticks]
    rw [hticks, List.flatMap_cons]
    constructor
    · exact pairwise_append_of_last hlast (found.scores_pairwise generations) hrest hlater
    · intro elite spare helite hroom x hx
      have hscored := (helite.after_absorbs (hroom fs generations rest rfl)).le_scores generations
      rcases List.mem_append.mp hx with hnow | hthen
      · exact hscored x hnow
      · exact Binary64.le_trans (hscored _ (List.mem_of_getLast? hlast)) (hlater x hthen)

/-- A tick reports the fitness of its last elite. -/
theorem ticks_report {commands : List Command} (h : ∀ c ∈ commands, c.IsTickOrAbsorb)
    (hexamples : p.examples.isEmpty = false) :
    ∀ t ∈ p.ticks commands, t.scores.getLast? = some t.report.bestFitness := by
  induction commands generalizing p with
  | nil => exact nofun
  | cons c rest ih =>
    obtain ⟨hc, hrest⟩ := List.forall_mem_cons.mp h
    have hnext : (p.perform c).2.examples.isEmpty = false := by
      rw [(perform_keeps hc p).1]
      exact hexamples
    cases c with
    | tick generations =>
      rw [ticks]
      refine List.forall_mem_cons.mpr ⟨?_, ih hrest hnext⟩
      obtain ⟨-, hreport, hlast⟩ := seated_tick hexamples hc
      rw [hreport]
      exact hlast
    | absorb f => exact ih hrest hnext
    | _ => exact hc.elim

/-- What ticks report rises, if the scores of their elites rise. -/
theorem reports_pairwise {ts : List Ticked}
    (hreport : ∀ t ∈ ts, t.scores.getLast? = some t.report.bestFitness)
    (h : (ts.flatMap Ticked.scores).Pairwise fun x y => x.le y = true) :
    (ts.map fun t => t.report.bestFitness).Pairwise fun x y => x.le y = true := by
  induction ts with
  | nil => exact .nil
  | cons t rest ih =>
    obtain ⟨ht, hrest⟩ := List.forall_mem_cons.mp hreport
    rw [List.flatMap_cons] at h
    obtain ⟨-, hscores, hbetween⟩ := List.pairwise_append.mp h
    refine List.pairwise_cons.mpr ⟨fun x hx => ?_, ih hrest hscores⟩
    obtain ⟨t', ht', rfl⟩ := List.mem_map.mp hx
    exact hbetween _ (List.mem_of_getLast? ht) _
      (List.mem_flatMap.mpr ⟨t', ht', List.mem_of_getLast? (hrest t' ht')⟩)

/-- **The elite is never lost and its score never drops.** A pool with examples is ticked,
and takes in any formulas between the ticks. If between two ticks fewer immigrants replace
a formula than the population has members, then

* the best formula that a tick leaves is in the same slot, with the same gene, fitness and
  feedback, when the next tick starts;
* the best fitness that the ticks report never drops, nor does that of the generations
  inside a tick, of which the last is the one reported. -/
theorem elite_survives (p : Pool σ) (commands : List Command)
    (examples : p.examples.isEmpty = false) (calls : ∀ c ∈ commands, c.IsTickOrAbsorb)
    (paced : Paced (p.size - 1) p commands) :
    (∀ left fs, Between p commands left fs →
      left.formulas[left.bestIndex]? = some left.best ∧
      (left.after (fs.map .absorb)).formulas[left.bestIndex]? = some left.best) ∧
    ((p.ticks commands).map fun t => t.report.bestFitness).Pairwise (fun x y => x.le y = true) ∧
    ((p.ticks commands).flatMap Ticked.scores).Pairwise (fun x y => x.le y = true) ∧
    (∀ t ∈ p.ticks commands, t.scores.getLast? = some t.report.bestFitness) := by
  have hreport := ticks_report calls examples
  have hscores := ((course_of_isTickOrAbsorb calls).scores_pairwise examples paced).1
  refine ⟨fun left fs hbetween => ?_, reports_pairwise hreport hscores, hscores, hreport⟩
  have hroom := paced left fs hbetween
  obtain ⟨before, generations, generations', more, rfl, hleft⟩ := hbetween
  rw [List.forall_mem_append, List.forall_mem_cons] at calls
  obtain ⟨hbefore, hpos, -⟩ := calls
  obtain ⟨hexamples, hsize⟩ := after_keeps hbefore p
  have hseated := seated_tick (p := p.after before) (by rwa [hexamples]) hpos
  rw [hsize] at hseated
  have htick : left = ((p.after before).tick generations).2 := by
    rw [hleft, after_append, after_cons]
    rfl
  rw [← htick] at hseated
  exact ⟨hseated.1.get, (hseated.1.after_absorbs hroom).get⟩

/-- Of two formulas, the one that fits less is replaced by an immigrant that claims an
infinite fitness. The other one is still in its slot when the next tick starts. -/
theorem elite_survives_immigrant :
    let formulas : List Formula :=
      [.ofGene ⟨[2, 1, 0, 0], by decide⟩, .ofGene ⟨[1, 2, 0, 0], by decide⟩]
    let p : Pool ChaCha.Stream :=
      ⟨⟨2, 4, .half⟩, formulas, ⟨[⟨1, 3⟩, ⟨2, 5⟩], by decide⟩, .ofSeed 42, 0, List.cons_ne_nil _ _⟩
    let immigrant : Formula := ⟨.empty, .infinity false, .nan⟩
    let commands : List Command := [.tick 1, .absorb immigrant, .tick 1]
    let left := p.after [.tick 1]
    p.examples.isEmpty = false ∧ (∀ c ∈ commands, c.IsTickOrAbsorb) ∧
    Paced (p.size - 1) p commands ∧ left.replacements [immigrant] = 1 ∧
    (left.after [.absorb immigrant]).formulas[left.bestIndex]? = some left.best := by
  intro formulas p immigrant commands left
  have examples : p.examples.isEmpty = false := rfl
  have calls : ∀ c ∈ commands, c.IsTickOrAbsorb := by
    simp [commands, Command.IsTickOrAbsorb]
  have paced : Paced (p.size - 1) p commands := by
    rintro left fs ⟨before, generations, generations', more, hcommands, -⟩
    have hlength := congrArg List.length hcommands
    simp only [commands, List.length_cons, List.length_nil, List.length_append,
      List.length_map] at hlength
    have hreplacements := left.replacements_le_length fs
    have hsize : p.size = 2 := rfl
    omega
  have hbetween : Between p commands left [immigrant] := ⟨[], 1, 1, [], rfl, rfl⟩
  have hreplaced : left.replacements [immigrant] = 1 := by decide +kernel
  have hkept := ((elite_survives p commands examples calls paced).1 _ _ hbetween).2
  exact ⟨examples, calls, paced, hreplaced, hkept⟩

end Pool

end AffineSwarm
