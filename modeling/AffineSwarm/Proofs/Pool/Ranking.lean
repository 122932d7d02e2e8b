import AffineSwarm.Proofs.Binary64.Order
import AffineSwarm.Pool.Evolution

/-!
# The ranking of a population

The two tie rules of a pool are one order. A slot outranks another if its formula is
fitter, or as fit and in an earlier slot. The best formula, of which the first wins ties,
is the one that outranks all others (`isTop_firstBest`); the worst formula, of which the
last wins ties, is the one that all others outrank (`isBottom_lastWorst`). So the formula
that an immigrant replaces is the elite only if the elite outranks nobody.

## Results

* `Outranks.trans`, `Outranks.asymm` — the ranking is an order of slots.
* `isTop_firstBest`, `isBottom_lastWorst` — what the two scans of a population find.
* `Pool.isTop_bestEntry`, `Pool.isBottom_worstEntry` — the same for a pool.
* `IsTop.unique` — a population has one best slot.
* `IsTop.cull` — culling leaves the best formula where it is, and the best.
-/

namespace AffineSwarm

-- ---------------------------------------------------------------------------
-- The order of slots
-- ---------------------------------------------------------------------------

/-- The formula in one slot ranks above that in another. -/
def Outranks (a b : Nat × Formula) : Prop :=
  b.2.fitness.order < a.2.fitness.order ∨
    (b.2.fitness.order = a.2.fitness.order ∧ a.1 < b.1)

theorem Outranks.irrefl (a : Nat × Formula) : ¬ Outranks a a := by
  unfold Outranks
  omega

theorem Outranks.asymm {a b : Nat × Formula} (h : Outranks a b) : ¬ Outranks b a := by
  unfold Outranks at *
  omega

theorem Outranks.trans {a b c : Nat × Formula} (hab : Outranks a b) (hbc : Outranks b c) :
    Outranks a c := by
  unfold Outranks at *
  omega

/-- What outranks another slot is at least as fit. -/
theorem Outranks.order_le {a b : Nat × Formula} (h : Outranks a b) :
    b.2.fitness.order ≤ a.2.fitness.order := by
  unfold Outranks at h
  omega

/-- The slot holds the formula, and it is ahead of every other slot. -/
structure IsFirst (Ahead : Nat × Formula → Nat × Formula → Prop) (fs : List Formula)
    (a : Nat × Formula) : Prop where
  get : fs[a.1]? = some a.2
  ahead : ∀ i f, fs[i]? = some f → i ≠ a.1 → Ahead a (i, f)

/-- The slot outranks every other slot. -/
abbrev IsTop (fs : List Formula) (a : Nat × Formula) : Prop := IsFirst Outranks fs a

/-- Every other slot outranks this one. -/
abbrev IsBottom (fs : List Formula) (a : Nat × Formula) : Prop :=
  IsFirst (fun a b => Outranks b a) fs a

/-- A population has one best slot. -/
theorem IsTop.unique {fs : List Formula} {a b : Nat × Formula} (ha : IsTop fs a)
    (hb : IsTop fs b) : a = b := by
  have hslot : a.1 = b.1 := by
    refine Decidable.byContradiction fun hne => ?_
    have hab : Outranks a b := ha.ahead b.1 b.2 hb.get (Ne.symm hne)
    have hba : Outranks b a := hb.ahead a.1 a.2 ha.get hne
    exact hab.asymm hba
  have hformula : some a.2 = some b.2 := by
    rw [← ha.get, ← hb.get, hslot]
  exact Prod.ext hslot (Option.some.inj hformula)

/-- The best formula is at least as fit as any other. -/
theorem IsTop.order_le {fs : List Formula} {a : Nat × Formula} (h : IsTop fs a) {i : Nat}
    {f : Formula} (hf : fs[i]? = some f) : f.fitness.order ≤ a.2.fitness.order := by
  by_cases hslot : i = a.1
  · subst hslot
    rw [h.get] at hf
    cases hf
    exact Int.le_refl _
  · exact (h.ahead i f hf hslot).order_le

-- ---------------------------------------------------------------------------
-- Scanning for the best and the worst
-- ---------------------------------------------------------------------------

/-- Every fitness of a population is a number. -/
def Numbered (fs : List Formula) : Prop := ∀ f ∈ fs, f.fitness.isNaN = false

section Scan

variable {Ahead : Nat × Formula → Nat × Formula → Prop} {fs : List Formula} {a : Nat × Formula}
  {f : Formula}

theorem IsFirst.mem (h : IsFirst Ahead fs a) : a.2 ∈ fs := List.mem_of_getElem? h.get

theorem IsFirst.lt_length (h : IsFirst Ahead fs a) : a.1 < fs.length :=
  (List.getElem?_eq_some_iff.mp h.get).1

theorem isFirst_singleton (f : Formula) : IsFirst Ahead [f] (0, f) where
  get := rfl
  ahead i g hg hne := by
    have hlt : i < 1 := (List.getElem?_eq_some_iff.mp hg).1
    exact absurd (Nat.lt_one_iff.mp hlt) hne

/-- A slot of a longer population is one of the shorter one or the new one. -/
theorem getElem?_snoc {i : Nat} {g : Formula} (h : (fs ++ [f])[i]? = some g) :
    fs[i]? = some g ∨ (i = fs.length ∧ g = f) := by
  rcases Nat.lt_trichotomy i fs.length with hlt | rfl | hgt
  · rw [List.getElem?_append_left hlt] at h
    exact .inl h
  · rw [List.getElem?_concat_length] at h
    exact .inr ⟨rfl, (Option.some.inj h).symm⟩
  · have hlength : (fs ++ [f]).length ≤ i := by
      simp only [List.length_append, List.length_singleton]
      omega
    rw [List.getElem?_eq_none hlength] at h
    cases h

/-- The first slot stays so if it is ahead of one more formula. -/
theorem IsFirst.snoc (h : IsFirst Ahead fs a) (hahead : Ahead a (fs.length, f)) :
    IsFirst Ahead (fs ++ [f]) a where
  get := by
    rw [List.getElem?_append_left h.lt_length]
    exact h.get
  ahead i g hg hne := by
    rcases getElem?_snoc hg with hold | ⟨rfl, rfl⟩
    · exact h.ahead i g hold hne
    · exact hahead

/-- One more formula that is ahead of the first slot is ahead of all. -/
theorem IsFirst.snoc_of_ahead (h : IsFirst Ahead fs a) (hahead : Ahead (fs.length, f) a)
    (htrans : ∀ {x y z}, Ahead x y → Ahead y z → Ahead x z) :
    IsFirst Ahead (fs ++ [f]) (fs.length, f) where
  get := List.getElem?_concat_length
  ahead i g hg hne := by
    rcases getElem?_snoc hg with hold | ⟨hi, -⟩
    · by_cases hslot : i = a.1
      · subst hslot
        rw [h.get] at hold
        cases hold
        exact hahead
      · exact htrans hahead (h.ahead i g hold hslot)
    · exact absurd hi hne

/-- One more formula is the best only if it is strictly fitter. -/
theorem IsTop.scan (h : IsTop fs a) (ha : a.2.fitness.isNaN = false)
    (hf : f.fitness.isNaN = false) :
    IsTop (fs ++ [f]) (if a.2.fitness.lt f.fitness then (fs.length, f) else a) := by
  by_cases hlt : a.2.fitness.lt f.fitness = true
  · rw [if_pos hlt]
    exact h.snoc_of_ahead (.inl (Binary64.lt_iff.mp hlt).2.2) Outranks.trans
  · rw [if_neg hlt]
    rw [Bool.not_eq_true, Binary64.not_lt_iff ha hf] at hlt
    have hslot : a.1 < fs.length := h.lt_length
    refine h.snoc ?_
    unfold Outranks
    simp only
    omega

/-- One more formula is the worst unless it is strictly fitter. -/
theorem IsBottom.scan (h : IsBottom fs a) (ha : a.2.fitness.isNaN = false)
    (hf : f.fitness.isNaN = false) :
    IsBottom (fs ++ [f]) (if f.fitness.le a.2.fitness then (fs.length, f) else a) := by
  by_cases hle : f.fitness.le a.2.fitness = true
  · rw [if_pos hle]
    have horder : f.fitness.order ≤ a.2.fitness.order := (Binary64.le_iff.mp hle).2.2
    have hslot : a.1 < fs.length := h.lt_length
    refine h.snoc_of_ahead ?_ fun hxy hyz => hyz.trans hxy
    unfold Outranks
    simp only
    omega
  · rw [if_neg hle]
    refine h.snoc (.inl ?_)
    exact Int.not_le.mp fun horder => hle (Binary64.le_iff.mpr ⟨hf, ha, horder⟩)

end Scan

/-- The scan for the best, by induction on what is still to be scanned. -/
theorem isTop_firstBest_go {done rest : List Formula} {best : Nat × Formula}
    (h : IsTop done best) (hnumbers : Numbered (done ++ rest)) :
    IsTop (done ++ rest) (firstBest.go done.length best rest) := by
  induction rest generalizing done best with
  | nil => rwa [List.append_nil]
  | cons f rest ih =>
    have hbest := hnumbers best.2 (List.mem_append_left _ h.mem)
    have hf := hnumbers f (List.mem_append_right _ List.mem_cons_self)
    have hrest := ih (h.scan hbest hf) (by rwa [List.append_assoc])
    rwa [List.append_assoc, List.length_append] at hrest

/-- The scan for the worst, by induction on what is still to be scanned. -/
theorem isBottom_lastWorst_go {done rest : List Formula} {worst : Nat × Formula}
    (h : IsBottom done worst) (hnumbers : Numbered (done ++ rest)) :
    IsBottom (done ++ rest) (lastWorst.go done.length worst rest) := by
  induction rest generalizing done worst with
  | nil => rwa [List.append_nil]
  | cons f rest ih =>
    have hworst := hnumbers worst.2 (List.mem_append_left _ h.mem)
    have hf := hnumbers f (List.mem_append_right _ List.mem_cons_self)
    have hrest := ih (h.scan hworst hf) (by rwa [List.append_assoc])
    rwa [List.append_assoc, List.length_append] at hrest

theorem isTop_firstBest {fs : List Formula} (hne : fs ≠ []) (h : Numbered fs) :
    IsTop fs (firstBest (fs.head hne) fs.tail) := by
  have htop : Numbered ([fs.head hne] ++ fs.tail) →
      IsTop ([fs.head hne] ++ fs.tail) (firstBest (fs.head hne) fs.tail) :=
    isTop_firstBest_go (isFirst_singleton (fs.head hne))
  rw [List.singleton_append, List.cons_head_tail] at htop
  exact htop h

theorem isBottom_lastWorst {fs : List Formula} (hne : fs ≠ []) (h : Numbered fs) :
    IsBottom fs (lastWorst (fs.head hne) fs.tail) := by
  have hbottom : Numbered ([fs.head hne] ++ fs.tail) →
      IsBottom ([fs.head hne] ++ fs.tail) (lastWorst (fs.head hne) fs.tail) :=
    isBottom_lastWorst_go (isFirst_singleton (fs.head hne))
  rw [List.singleton_append, List.cons_head_tail] at hbottom
  exact hbottom h

/-- The best entry of a pool outranks all others. -/
theorem Pool.isTop_bestEntry {σ : Type} {p : Pool σ} (h : Numbered p.formulas) :
    IsTop p.formulas p.bestEntry :=
  isTop_firstBest p.formulas_ne h

/-- All others outrank the worst entry of a pool. -/
theorem Pool.isBottom_worstEntry {σ : Type} {p : Pool σ} (h : Numbered p.formulas) :
    IsBottom p.formulas p.worstEntry :=
  isBottom_lastWorst p.formulas_ne h

-- ---------------------------------------------------------------------------
-- Culling
-- ---------------------------------------------------------------------------

variable {σ : Type} [WordStream σ]

/-- A slot after culling holds the formula that was there, or an unscored mutant. It never
holds a mutant in the slot of the elite. -/
theorem getElem?_cull {threshold : Binary64} {gene : Gene} {elite index i : Nat}
    {fs : List Formula} {s : σ} {g : Formula}
    (h : (Pool.cull threshold gene elite index fs s).formulas[i]? = some g) :
    ∃ f, fs[i]? = some f ∧
      (g = f ∨ (index + i ≠ elite ∧ ∃ mutant, g = .ofGene mutant)) := by
  induction fs generalizing index i s with
  | nil => cases h
  | cons f rest ih =>
    rw [Pool.cull] at h
    split at h
    · rename_i hcull
      cases i with
      | zero =>
        cases h
        have helite : index ≠ elite := by
          intro heq
          simp [PoolConfig.shouldCull, heq] at hcull
        exact ⟨f, rfl, .inr ⟨helite, _, rfl⟩⟩
      | succ i =>
        obtain ⟨f', hf', hg⟩ := ih h
        rw [Nat.add_assoc, Nat.add_comm 1 i] at hg
        exact ⟨f', hf', hg⟩
    · cases i with
      | zero =>
        cases h
        exact ⟨g, rfl, .inl rfl⟩
      | succ i =>
        obtain ⟨f', hf', hg⟩ := ih h
        rw [Nat.add_assoc, Nat.add_comm 1 i] at hg
        exact ⟨f', hf', hg⟩

/-- Culling leaves the best formula where it is. A mutant does not outrank it, not even
in an earlier slot: what was there was less fit than the best, so the best is fitter than
a formula without score. -/
theorem IsTop.cull {fs : List Formula} {a : Nat × Formula} (h : IsTop fs a)
    (hfit : ∀ f ∈ fs, 0 ≤ f.fitness.order) (threshold : Binary64) (gene : Gene) (s : σ) :
    IsTop (Pool.cull threshold gene a.1 0 fs s).formulas a where
  get := by
    have hlt : a.1 < (Pool.cull threshold gene a.1 0 fs s).formulas.length := by
      rw [Pool.length_cull]
      exact (List.getElem?_eq_some_iff.mp h.get).1
    have hget := List.getElem?_eq_getElem hlt
    obtain ⟨f, hf, hkept⟩ := getElem?_cull hget
    rw [h.get] at hf
    cases hf
    rcases hkept with heq | ⟨helite, -⟩
    · rw [hget, heq]
    · exact absurd (Nat.zero_add _) helite
  ahead i g hg hne := by
    obtain ⟨f, hf, hkept⟩ := getElem?_cull hg
    have habove := h.ahead i f hf hne
    rcases hkept with heq | ⟨-, mutant, rfl⟩
    · rw [heq]
      exact habove
    · have hzero : (Formula.ofGene mutant).fitness.order = 0 := rfl
      have hfitness : 0 ≤ f.fitness.order := hfit f (List.mem_of_getElem? hf)
      unfold Outranks at habove ⊢
      simp only at habove ⊢
      omega

end AffineSwarm
