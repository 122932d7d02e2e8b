import AffineSwarm.Proofs.Pool.Immigration
import AffineSwarm.Proofs.Pool.Invariant
import AffineSwarm.Proofs.Pool.Ranking
import Mathlib.Tactic.ByContra

/-!
# Whom an immigrant displaces

A formula whose gene the pool has is sent away, and the first slot with that gene is named.
Any other takes the slot of the worst formula, the last one if several are worst, and leaves
the other slots alone. It is then the only one with its gene, so the same formula is sent away
with the same slot when it comes again (`position_setFormula`).

The best formula wins ties by being first and the worst one by being last, so they are in
different slots as soon as there are two slots, even if all are equally fit
(`worstEntry_eq_bestIndex_iff`). That is why the best formula is displaced only if it is alone.

## Results

* `position_eq_some_iff`, `position_eq_none_iff` — which slot is found for a gene.
* `isLastWorst_worstEntry` — which slot an immigrant takes.
* `get_bestIndex_absorb` — the best formula of two or more stays.
* `absorb_replaces_worst` — all of this for the pools that are reached.
-/

namespace AffineSwarm.Pool

variable {σ : Type} {p : Pool σ} {f : Formula}

-- ---------------------------------------------------------------------------
-- The slot of a gene
-- ---------------------------------------------------------------------------

/-- The slot holds a formula with the gene, and no earlier slot does. -/
structure IsFirstOf (p : Pool σ) (gene : Gene) (slot : Nat) : Prop where
  get : ∃ g, p.formulas[slot]? = some g ∧ g.gene = gene
  earlier : ∀ i g, i < slot → p.formulas[i]? = some g → g.gene ≠ gene

theorem position_eq_some_iff {gene : Gene} {slot : Nat} :
    p.position gene = some slot ↔ p.IsFirstOf gene slot := by
  rw [position, List.findIdx?_eq_some_iff_getElem]
  simp only [decide_eq_true_eq]
  constructor
  · rintro ⟨hlt, hgene, hearlier⟩
    refine ⟨⟨_, List.getElem?_eq_getElem hlt, hgene⟩, ?_⟩
    intro i g hi hg
    obtain ⟨hi', rfl⟩ := List.getElem?_eq_some_iff.mp hg
    exact hearlier i hi
  · rintro ⟨⟨g, hg, hgene⟩, hearlier⟩
    obtain ⟨hlt, rfl⟩ := List.getElem?_eq_some_iff.mp hg
    refine ⟨hlt, hgene, ?_⟩
    intro i hi
    exact hearlier i _ hi (List.getElem?_eq_getElem (Nat.lt_trans hi hlt))

theorem position_eq_none_iff {gene : Gene} :
    p.position gene = none ↔ ∀ g ∈ p.formulas, g.gene ≠ gene := by
  simp [position, List.findIdx?_eq_none_iff]

/-- A gene that was new is found in the slot where it was put. -/
theorem position_setFormula {slot : Nat} (hnew : p.position f.gene = none)
    (hslot : slot < p.size) {g : Formula} (hgene : g.gene = f.gene) :
    (p.setFormula slot g).position f.gene = some slot := by
  rw [position_eq_none_iff] at hnew
  rw [position_eq_some_iff]
  refine ⟨⟨g, ?_, hgene⟩, ?_⟩
  · unfold size at hslot
    simp [setFormula, hslot]
  · intro i g' hi hg'
    rw [setFormula, List.getElem?_set_ne (by omega)] at hg'
    exact hnew g' (List.mem_of_getElem? hg')

-- ---------------------------------------------------------------------------
-- The worst and the best
-- ---------------------------------------------------------------------------

/-- The slot holds a formula, none is less fit, and all in later slots are fitter. -/
structure IsLastWorst (p : Pool σ) (slot : Nat) (worst : Formula) : Prop where
  get : p.formulas[slot]? = some worst
  least : ∀ g ∈ p.formulas, worst.fitness.le g.fitness = true
  later : ∀ i g, slot < i → p.formulas[i]? = some g → worst.fitness.lt g.fitness = true

theorem isLastWorst_worstEntry (h : Numbered p.formulas) :
    p.IsLastWorst p.worstEntry.1 p.worstEntry.2 := by
  have hbottom := isBottom_worstEntry h
  have hworst : p.worstEntry.2.fitness.isNaN = false := h _ hbottom.mem
  refine ⟨hbottom.get, ?_, ?_⟩
  · intro g hg
    obtain ⟨i, hi⟩ := List.getElem?_of_mem hg
    by_cases hslot : i = p.worstEntry.1
    · rw [hslot, hbottom.get] at hi
      cases hi
      exact Binary64.le_iff.mpr ⟨hworst, hworst, Int.le_refl _⟩
    · have hbelow : Outranks (i, g) p.worstEntry := hbottom.ahead i g hi hslot
      exact Binary64.le_iff.mpr ⟨hworst, h g hg, hbelow.order_le⟩
  · intro i g hi hg
    have hbelow : Outranks (i, g) p.worstEntry := hbottom.ahead i g hg (by omega)
    refine Binary64.lt_iff.mpr ⟨hworst, h g (List.mem_of_getElem? hg), ?_⟩
    unfold Outranks at hbelow
    simp only at hbelow
    omega

/-- The worst formula is the best one only if there is no other. -/
theorem worstEntry_eq_bestIndex_iff (h : Numbered p.formulas) :
    p.worstEntry.1 = p.bestIndex ↔ p.size = 1 := by
  have htop := isTop_bestEntry h
  have hbottom := isBottom_worstEntry h
  have hbest : p.bestIndex < p.size := htop.lt_length
  have hworst : p.worstEntry.1 < p.size := hbottom.lt_length
  constructor
  · intro hslot
    have hentry : p.worstEntry = p.bestEntry := by
      refine Prod.ext hslot (Option.some.inj ?_)
      rw [← hbottom.get, ← htop.get, hslot]
      rfl
    by_contra hsize
    -- a second slot would be below the best and above the worst
    obtain ⟨i, hi, hne⟩ : ∃ i, i < p.size ∧ i ≠ p.bestIndex := by
      by_cases hzero : p.bestIndex = 0
      · exact ⟨1, by omega, by omega⟩
      · exact ⟨0, by omega, by omega⟩
    have hget := List.getElem?_eq_getElem hi
    have hbelow : Outranks p.bestEntry (i, p.formulas[i]) := htop.ahead i _ hget hne
    have habove : Outranks (i, p.formulas[i]) p.worstEntry :=
      hbottom.ahead i _ hget (hslot ▸ hne)
    rw [hentry] at habove
    exact habove.asymm hbelow
  · intro hsize
    omega

-- ---------------------------------------------------------------------------
-- Immigrants
-- ---------------------------------------------------------------------------

/-- The best formula is displaced if it is the only one and the immigrant's gene is new. -/
theorem get_bestIndex_absorb (h : Numbered p.formulas) (f : Formula) :
    (p.absorb f).2.formulas[p.bestIndex]? ≠ some p.best ↔
      p.size = 1 ∧ ∀ g ∈ p.formulas, g.gene ≠ f.gene := by
  have htop := isTop_bestEntry h
  have hget : p.formulas[p.bestIndex]? = some p.best := htop.get
  rw [← position_eq_none_iff, ← worstEntry_eq_bestIndex_iff h]
  cases hposition : p.position f.gene with
  | some slot =>
    rw [absorb, hposition]
    simp [hget]
  | none =>
    rw [absorb_of_position hposition]
    simp only [setFormula, and_true]
    by_cases hslot : p.worstEntry.1 = p.bestIndex
    · -- the immigrant in the slot has another gene than the best formula had
      have hgene : p.best.gene ≠ f.gene := position_eq_none_iff.mp hposition _ p.best_mem
      have hlt : p.bestIndex < p.formulas.length := htop.lt_length
      rw [hslot, List.getElem?_set_self hlt]
      simp only [iff_true]
      intro heq
      exact hgene (congrArg Formula.gene (Option.some.inj heq)).symm
    · rw [List.getElem?_set_ne hslot]
      simp [hget, hslot]

variable [WordStream σ]

/-- **What becomes of an immigrant.** A formula whose gene a reached pool has changes nothing,
and the first slot with the gene is named. Any other takes the last slot among those of minimal
fitness, with its fitness kept within `[0, 1]` and no feedback, and no other slot changes. When
the formula comes a second time nothing changes, and the same slot is named. The best formula
is displaced exactly if it is alone and the gene is new; of two or more formulas the best is
afterwards at least as fit as before. -/
theorem absorb_replaces_worst (p : Pool σ) (reachable : Reachable p) (f : Formula) :
    let left := (p.absorb f).2
    ((∃ g ∈ p.formulas, g.gene = f.gene) →
      ∃ slot, p.IsFirstOf f.gene slot ∧ p.absorb f = (.alreadyPresent slot, p)) ∧
    ((∀ g ∈ p.formulas, g.gene ≠ f.gene) →
      ∃ slot worst, p.IsLastWorst slot worst ∧
        p.absorb f = (.replaced slot, p.setFormula slot ⟨f.gene, f.fitness.clampUnit, .zero⟩) ∧
        left.formulas[slot]? = some ⟨f.gene, f.fitness.clampUnit, .zero⟩ ∧
        ∀ i, i ≠ slot → left.formulas[i]? = p.formulas[i]?) ∧
    (∃ slot, ((p.absorb f).1 = .alreadyPresent slot ∨ (p.absorb f).1 = .replaced slot) ∧
      left.absorb f = (.alreadyPresent slot, left)) ∧
    (left.formulas[p.bestIndex]? ≠ some p.best ↔
      p.size = 1 ∧ ∀ g ∈ p.formulas, g.gene ≠ f.gene) ∧
    (2 ≤ p.size → p.best.fitness.le left.best.fitness = true) := by
  intro left
  have hnumbers : Numbered p.formulas := fun g hg => (reachable.fitness_within g hg).1
  have hleft : Numbered left.formulas := by
    obtain ⟨config, examples, holds⟩ := reachable.holds
    intro g hg
    exact ((holds.absorb trivial).member g hg).fitness_within.1
  have hdisplaced := get_bestIndex_absorb hnumbers f
  refine ⟨?_, ?_, ?_, hdisplaced, ?_⟩
  · rintro ⟨g, hg, hgene⟩
    cases hposition : p.position f.gene with
    | none => exact absurd hgene (position_eq_none_iff.mp hposition g hg)
    | some slot => exact ⟨slot, position_eq_some_iff.mp hposition, by rw [absorb, hposition]⟩
  · intro hnew
    have habsorb := absorb_of_position (position_eq_none_iff.mpr hnew)
    refine ⟨_, _, isLastWorst_worstEntry hnumbers, habsorb, ?_, ?_⟩
    · simp only [left, habsorb, setFormula]
      exact List.getElem?_set_self p.worstEntry_lt_size
    · intro i hi
      simp only [left, habsorb, setFormula]
      exact List.getElem?_set_ne (Ne.symm hi)
  · cases hposition : p.position f.gene with
    | some slot =>
      have habsorb : p.absorb f = (.alreadyPresent slot, p) := by rw [absorb, hposition]
      exact ⟨slot, .inl (by rw [habsorb]), by simp only [left, habsorb]⟩
    | none =>
      have habsorb := absorb_of_position hposition
      have hagain : left.position f.gene = some p.worstEntry.1 := by
        simp only [left, habsorb]
        exact position_setFormula hposition p.worstEntry_lt_size rfl
      exact ⟨_, .inr (by rw [habsorb]), by rw [absorb, hagain]⟩
  · intro hsize
    have hstays : left.formulas[p.bestIndex]? = some p.best := by
      by_contra hgone
      have halone := (hdisplaced.mp hgone).1
      omega
    have htop := isTop_bestEntry hleft
    exact Binary64.le_iff.mpr
      ⟨hnumbers _ p.best_mem, hleft _ left.best_mem, htop.order_le hstays⟩

/-- Of sixteen formulas without score the first is the best and the last the worst. A formula
that claims to be no fitter than they are takes the last slot, and is known from then on. -/
theorem absorb_replaces_worst_of_equals :
    let p : Pool ChaCha.Stream := standard (.ofSeed 42)
    let immigrant : Formula := ⟨.empty, .nan, .one⟩
    let left := (p.absorb immigrant).2
    Reachable p ∧ (p.absorb immigrant).1 = .replaced 15 ∧
    left.absorb immigrant = (.alreadyPresent 15, left) ∧
    left.formulas[p.bestIndex]? = some p.best := by
  intro p immigrant left
  have fresh : Fresh .standard p := ⟨.ofSeed 42, .inr ⟨rfl, rfl⟩⟩
  have reachable : Reachable p := ⟨.standard, p, [], fresh, rfl⟩
  obtain ⟨-, -, hagain, hdisplaced, -⟩ := absorb_replaces_worst p reachable immigrant
  have hreplaced : (p.absorb immigrant).1 = .replaced 15 := by decide +kernel
  have hsize : p.size ≠ 1 := by decide +kernel
  obtain ⟨slot, hfirst, hsecond⟩ := hagain
  rw [hreplaced] at hfirst
  obtain rfl : 15 = slot := by simpa using hfirst
  refine ⟨reachable, hreplaced, hsecond, ?_⟩
  by_contra hgone
  exact hsize (hdisplaced.mp hgone).1

end AffineSwarm.Pool
