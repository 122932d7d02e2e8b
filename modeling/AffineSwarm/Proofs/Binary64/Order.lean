import AffineSwarm.Binary64.Basic

/-!
# Comparing and clamping doubles

What is needed of binary64 numbers beyond their definition: comparison is the order of
the places that numbers have (`le_iff`, `lt_iff`), clamping ends inside its bounds, and
neither sums nor clamping bring in a NaN unless one takes part.

`Within low high x` says that `x` is a number between two bounds. For the bounds 0 and 1
these are the bit patterns up to that of 1, and the negative zero
(`within_zero_one_iff`).
-/

namespace AffineSwarm.Binary64

-- ---------------------------------------------------------------------------
-- Comparison
-- ---------------------------------------------------------------------------

theorem isNaN_eq_false_iff {x : Binary64} : x.isNaN = false ↔ x.magnitude ≤ infinityBits := by
  rw [isNaN, ← Bool.not_eq_true, decide_eq_true_eq, Nat.not_lt]

theorem le_iff {x y : Binary64} :
    x.le y = true ↔ x.isNaN = false ∧ y.isNaN = false ∧ x.order ≤ y.order := by
  simp only [le, Bool.and_eq_true, Bool.not_eq_true', decide_eq_true_eq, and_assoc]

theorem lt_iff {x y : Binary64} :
    x.lt y = true ↔ x.isNaN = false ∧ y.isNaN = false ∧ x.order < y.order := by
  simp only [lt, Bool.and_eq_true, Bool.not_eq_true', decide_eq_true_eq, and_assoc]

theorem not_lt_iff {x y : Binary64} (hx : x.isNaN = false) (hy : y.isNaN = false) :
    x.lt y = false ↔ y.order ≤ x.order := by
  rw [← Bool.not_eq_true, lt_iff]
  constructor
  · intro h
    exact Int.not_lt.mp fun hlt => h ⟨hx, hy, hlt⟩
  · rintro h ⟨-, -, hlt⟩
    omega

/-- A number from `low` to `high`. -/
def Within (low high x : Binary64) : Prop :=
  x.isNaN = false ∧ low.le x = true ∧ x.le high = true

instance (low high x : Binary64) : Decidable (Within low high x) :=
  inferInstanceAs (Decidable (_ ∧ _ ∧ _))

/-- The numbers from 0 to 1, by their bits. The negative zero is one of them. -/
theorem within_zero_one_iff (x : Binary64) :
    Within zero one x ↔ x.bits ≤ one.bits ∨ x.bits = 0x8000000000000000 := by
  have hlt := x.bits.toNat_lt
  have hzero : zero.isNaN = false ∧ zero.order = 0 := by decide
  have hone : one.isNaN = false ∧ one.order = 0x3ff0000000000000 := by decide
  rw [Within, le_iff, le_iff, UInt64.le_iff_toNat_le, ← UInt64.toNat_inj]
  simp only [hzero, hone, true_and]
  simp only [isNaN_eq_false_iff, order, negative, magnitude, decide_eq_true_eq]
  by_cases h : signSize ≤ x.bits.toNat
  · simp only [if_pos h]
    simp only [signSize, infinityBits, one, UInt64.reduceToNat] at h ⊢
    omega
  · simp only [if_neg h]
    simp only [signSize, infinityBits, one, UInt64.reduceToNat] at h ⊢
    omega

-- ---------------------------------------------------------------------------
-- Clamping
-- ---------------------------------------------------------------------------

theorem within_clamp {low high x : Binary64} (hlow : low.isNaN = false)
    (hhigh : high.isNaN = false) (hle : low.order ≤ high.order) (hx : x.isNaN = false) :
    Within low high (x.clamp low high) := by
  simp only [Within, clamp, le_iff]
  by_cases hl : x.lt low = true
  · rw [if_pos hl]
    exact ⟨hlow, ⟨hlow, hlow, Int.le_refl _⟩, hlow, hhigh, hle⟩
  · rw [Bool.not_eq_true, not_lt_iff hx hlow] at hl
    rw [if_neg (by rw [Bool.not_eq_true, not_lt_iff hx hlow]; exact hl)]
    by_cases hh : high.lt x = true
    · rw [if_pos hh]
      exact ⟨hhigh, ⟨hlow, hhigh, hle⟩, hhigh, hhigh, Int.le_refl _⟩
    · rw [if_neg hh]
      rw [Bool.not_eq_true, not_lt_iff hhigh hx] at hh
      exact ⟨hx, ⟨hlow, hx, hl⟩, hx, hhigh, hh⟩

/-- Clamping to `[0, 1]` gives a number in `[0, 1]`, whatever is clamped. -/
theorem within_clampUnit (x : Binary64) : Within zero one x.clampUnit := by
  rw [clampUnit]
  by_cases hx : x.isNaN = true
  · rw [if_pos hx]
    decide
  · rw [if_neg hx]
    exact within_clamp (by decide) (by decide) (by decide) (by simpa using hx)

/-- A number in `[0, 1]` is left as it is, bit for bit. -/
theorem clampUnit_of_within {x : Binary64} (h : Within zero one x) : x.clampUnit = x := by
  obtain ⟨hx, hzero, hone⟩ := h
  have hl : x.lt zero = false := (not_lt_iff hx (by decide)).mpr (le_iff.mp hzero).2.2
  have hh : one.lt x = false := (not_lt_iff (by decide) hx).mpr (le_iff.mp hone).2.2
  simp [clampUnit, clamp, hx, hl, hh]

-- ---------------------------------------------------------------------------
-- Signs
-- ---------------------------------------------------------------------------

/-- A double is its sign and its magnitude. -/
theorem ofMagnitude_magnitude (x : Binary64) : ofMagnitude x.negative x.magnitude = x := by
  have hbits : (x.magnitude % signSize + if x.negative then signSize else 0) = x.bits.toNat := by
    have hlt := x.bits.toNat_lt
    rw [magnitude, Nat.mod_mod, negative]
    by_cases hsign : signSize ≤ x.bits.toNat
    · rw [if_pos (decide_eq_true hsign)]
      simp only [signSize] at hsign ⊢
      omega
    · rw [if_neg (by simpa using hsign)]
      exact Nat.mod_eq_of_lt (Nat.lt_of_not_le hsign)
  rw [ofMagnitude, hbits, UInt64.ofNat_toNat]

-- ---------------------------------------------------------------------------
-- Sums
-- ---------------------------------------------------------------------------

theorem isNaN_ofMagnitude (negative : Bool) {m : Nat} (h : m ≤ infinityBits) :
    (ofMagnitude negative m).isNaN = false := by
  simp only [infinityBits] at h
  rw [isNaN_eq_false_iff, magnitude, ofMagnitude]
  simp only [UInt64.toNat_ofNat', signSize, infinityBits]
  split <;> omega

theorem isNaN_ofUnits (negative : Bool) (num den : Nat) :
    (ofUnits negative num den).isNaN = false :=
  isNaN_ofMagnitude negative (Nat.min_le_right _ _)

theorem isNaN_of_isFinite {x : Binary64} (h : x.isFinite = true) : x.isNaN = false := by
  rw [isFinite, decide_eq_true_eq] at h
  exact isNaN_eq_false_iff.mpr (Nat.le_of_lt h)

/-- Adding a finite number to a number gives a number. -/
theorem isNaN_add {x y : Binary64} (hx : x.isNaN = false) (hy : y.isFinite = true) :
    (x.add y).isNaN = false := by
  have hyNaN := isNaN_of_isFinite hy
  simp only [add, hx, hyNaN, Bool.or_self, Bool.false_eq_true, if_false, hy, if_true, Bool.true_or]
  split
  · rw [addFinite]
    split
    · exact isNaN_ofMagnitude _ (Nat.zero_le _)
    · exact isNaN_ofUnits _ _ _
  · exact hx

end AffineSwarm.Binary64
