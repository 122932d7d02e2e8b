import AffineSwarm.Proofs.Binary64.Order
import Mathlib.Algebra.Ring.Nat

/-!
# Whole numbers as doubles

A number with at most 53 significant bits is a double, so rounding leaves it as it is. This is
so for every natural number below `2^53` (`isWhole_ofNat`), and the sum of two doubles that are
such numbers is exact as long as the sum is below that bound too (`add_ofNat`). A sum of many is
then exact whatever the order in which they are added (`foldl_add_ofNat`, by induction on the
numbers, each partial sum being below the bound because the whole sum is).
-/

namespace AffineSwarm.Binary64

/-- The double is the number `n`. -/
def IsWhole (x : Binary64) (n : Nat) : Prop :=
  x.isFinite = true ∧ x.signedUnits = (n * unitsPerOne : Nat)

/-- Below `2^53` every natural number is a double. -/
def wholeBound : Nat := 2 * fractionSize

-- ---------------------------------------------------------------------------
-- Significands
-- ---------------------------------------------------------------------------

theorem shiftLeft_one (n d : Nat) : n <<< d = n * (1 <<< d) := by
  rw [Nat.shiftLeft_eq, Nat.shiftLeft_eq, Nat.one_mul]

theorem one_shiftLeft_pos (d : Nat) : 0 < 1 <<< d := by
  rw [Nat.shiftLeft_eq, Nat.one_mul]
  exact Nat.two_pow_pos d

/-- A significand that fills its 53 bits is kept by rounding, wherever it stands. -/
theorem magnitudeOfUnits_significand {s : Nat} (hlow : fractionSize ≤ s) (hhigh : s < wholeBound)
    (d : Nat) : magnitudeOfUnits (s <<< d) 1 = min (d * fractionSize + s) infinityBits := by
  have hpow := shiftLeft_one s d
  have hone := one_shiftLeft_pos d
  have hlog : (s <<< d).log2 = 52 + d := by
    have hne : s <<< d ≠ 0 := by
      rw [hpow]
      exact Nat.mul_ne_zero (Nat.ne_of_gt (Nat.lt_of_lt_of_le (by decide) hlow)) (Nat.ne_of_gt hone)
    rw [Nat.log2_eq_iff hne, Nat.shiftLeft_eq, Nat.pow_add, Nat.add_right_comm, Nat.pow_add]
    exact ⟨Nat.mul_le_mul_right _ hlow, Nat.mul_lt_mul_of_pos_right hhigh (Nat.two_pow_pos d)⟩
  have hround : roundHalfEven (s <<< d) (1 <<< d) = s := by
    rw [roundHalfEven, hpow]
    simp only [Nat.mul_mod_left, Nat.mul_div_left _ hone]
    rw [if_neg (by omega)]
  rw [magnitudeOfUnits, Nat.div_one, hlog, Nat.add_sub_cancel_left, hround]

theorem unitsOfMagnitude_significand {s : Nat} (hlow : fractionSize ≤ s) (hhigh : s < wholeBound)
    (d : Nat) : unitsOfMagnitude (d * fractionSize + s) = s <<< d := by
  have hpos : 0 < fractionSize := by decide
  have hrest : s - fractionSize < fractionSize := by
    rw [wholeBound] at hhigh
    omega
  have hsplit : d * fractionSize + s = s - fractionSize + fractionSize * (d + 1) := by
    rw [Nat.mul_succ, Nat.mul_comm]
    omega
  rw [unitsOfMagnitude, if_neg (by omega), hsplit, Nat.add_mul_mod_self_left,
    Nat.add_mul_div_left _ _ hpos, Nat.mod_eq_of_lt hrest, Nat.div_eq_of_lt hrest,
    Nat.zero_add, Nat.add_sub_cancel, Nat.add_sub_cancel' hlow]

/-- A natural number below the bound has a significand of 53 bits, once it is counted in
units. -/
theorem exists_significand {n : Nat} (hpos : 0 < n) (hlt : n < wholeBound) :
    ∃ s d, fractionSize ≤ s ∧ s < wholeBound ∧ d ≤ 1074 ∧ n * unitsPerOne = s <<< d := by
  have hne : n ≠ 0 := Nat.ne_of_gt hpos
  have hlog : n.log2 ≤ 52 := Nat.le_of_lt_succ ((Nat.log2_lt hne).mpr hlt)
  refine ⟨n <<< (52 - n.log2), n.log2 + 1022, ?_, ?_, by omega, ?_⟩
  · have h := Nat.mul_le_mul_right (2 ^ (52 - n.log2)) (Nat.log2_self_le hne)
    rw [← Nat.pow_add, Nat.add_sub_cancel' hlog] at h
    rw [Nat.shiftLeft_eq]
    exact h
  · have h := Nat.mul_lt_mul_of_pos_right (Nat.lt_log2_self (n := n))
      (Nat.two_pow_pos (52 - n.log2))
    rw [← Nat.pow_add, Nat.add_right_comm, Nat.add_sub_cancel' hlog] at h
    rw [Nat.shiftLeft_eq]
    exact h
  · have hplaces : 52 - n.log2 + (n.log2 + 1022) = 1074 := by omega
    rw [← Nat.shiftLeft_add, hplaces]
    exact (shiftLeft_one n 1074).symm

-- ---------------------------------------------------------------------------
-- Whole numbers
-- ---------------------------------------------------------------------------

theorem magnitude_ofMagnitude {m : Nat} (h : m < signSize) :
    (ofMagnitude false m).magnitude = m ∧ (ofMagnitude false m).negative = false := by
  have hbits : (ofMagnitude false m).bits.toNat = m := by
    rw [ofMagnitude, UInt64.toNat_ofNat']
    simp only [signSize] at h ⊢
    simp only [Bool.false_eq_true, if_false, Nat.add_zero]
    omega
  rw [magnitude, negative, hbits, Nat.mod_eq_of_lt h]
  exact ⟨rfl, decide_eq_false (Nat.not_le.mpr h)⟩

theorem negative_ofNat (n : Nat) : (ofNat n).negative = false := by
  have hle : magnitudeOfUnits (n * unitsPerOne) 1 < signSize :=
    Nat.lt_of_le_of_lt (Nat.min_le_right ..) (by decide)
  exact (magnitude_ofMagnitude hle).2

/-- A natural number below the bound is a double. -/
theorem isWhole_ofNat {n : Nat} (h : n < wholeBound) : (ofNat n).IsWhole n := by
  rcases Nat.eq_zero_or_pos n with rfl | hpos
  · exact ⟨by decide, by decide⟩
  · obtain ⟨s, d, hlow, hhigh, hd, hunits⟩ := exists_significand hpos h
    have hsize : d * fractionSize + s < infinityBits := by
      simp only [fractionSize, wholeBound, infinityBits] at hhigh ⊢
      omega
    have hmagnitude : magnitudeOfUnits (n * unitsPerOne) 1 = d * fractionSize + s := by
      rw [hunits, magnitudeOfUnits_significand hlow hhigh, Nat.min_eq_left (Nat.le_of_lt hsize)]
    obtain ⟨hread, hsign⟩ := magnitude_ofMagnitude (Nat.lt_trans hsize (by decide))
    rw [ofNat, ofRatio, ofUnits, hmagnitude]
    refine ⟨?_, ?_⟩
    · rw [isFinite, hread]
      exact decide_eq_true hsize
    · rw [signedUnits, hsign, units, hread, unitsOfMagnitude_significand hlow hhigh, hunits]
      rfl

-- ---------------------------------------------------------------------------
-- Sums
-- ---------------------------------------------------------------------------

theorem add_ofNat {a b : Nat} (h : a + b < wholeBound) :
    (ofNat a).add (ofNat b) = ofNat (a + b) := by
  obtain ⟨hfinite, hunits⟩ := isWhole_ofNat (Nat.lt_of_le_of_lt (Nat.le_add_right a b) h)
  obtain ⟨hfinite', hunits'⟩ := isWhole_ofNat (Nat.lt_of_le_of_lt (Nat.le_add_left b a) h)
  have hsum : (ofNat a).signedUnits + (ofNat b).signedUnits = ((a + b) * unitsPerOne : Nat) := by
    rw [hunits, hunits', Nat.add_mul, Int.natCast_add]
  rw [add, isNaN_of_isFinite hfinite, isNaN_of_isFinite hfinite', hfinite, hfinite']
  simp only [Bool.or_self, Bool.false_eq_true, if_false, if_true]
  rw [addFinite, hsum]
  rcases Nat.eq_zero_or_pos (a + b) with hzero | hpos
  · rw [hzero, negative_ofNat, negative_ofNat]
    decide
  · have hne : (((a + b) * unitsPerOne : Nat) : Int) ≠ 0 :=
      Int.natCast_ne_zero.mpr (Nat.ne_of_gt (Nat.mul_pos hpos (one_shiftLeft_pos 1074)))
    have hsign : decide ((((a + b) * unitsPerOne : Nat) : Int) < 0) = false :=
      decide_eq_false (Int.not_lt.mpr (Int.natCast_nonneg _))
    simp only [hne, if_false, hsign, Int.natAbs_natCast]
    rfl

/-- Adding numbers one by one is exact if their sum is below the bound. -/
theorem foldl_add_ofNat (ns : List Nat) (start : Nat) (h : start + ns.sum < wholeBound) :
    ns.foldl (fun sum n => sum.add (ofNat n)) (ofNat start) = ofNat (start + ns.sum) := by
  induction ns generalizing start with
  | nil => rfl
  | cons n rest ih =>
    rw [List.sum_cons, ← Nat.add_assoc] at h ⊢
    rw [List.foldl_cons, add_ofNat (by omega), ih _ h]

end AffineSwarm.Binary64
