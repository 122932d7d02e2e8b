import AffineSwarm.Decimal.Reading
import AffineSwarm.Proofs.Decimal.Shortest

/-!
# Decimals that are nearest to a number

Whatever lies in the rounding interval of a number is rounded to it
(`magnitudeOfUnits_of_contains`). The last place of the ratio is that of the number, unless the
number is the first one with its exponent and the ratio lies below it: there the places are half
as wide, and the ratio is rounded up to the end of them. So a decimal that reads back as a number
is what the number is nearest to, whatever its digits are (`nearest_of_reads`).
-/

namespace AffineSwarm

-- ---------------------------------------------------------------------------
-- Rounding
-- ---------------------------------------------------------------------------

namespace Binary64

variable {num den s d : Nat}

/-- A ratio less than a half from a whole number is rounded to it, and half a unit away as well
if the whole number is even. -/
theorem roundHalfEven_eq (hlow : 2 * (s * den) ≤ 2 * num + den)
    (hhigh : 2 * num ≤ 2 * (s * den) + den) (hden : 0 < den)
    (hodd : s % 2 = 1 → 2 * (s * den) < 2 * num + den ∧ 2 * num < 2 * (s * den) + den) :
    roundHalfEven num den = s := by
  have hsplit := Nat.div_add_mod' num den
  have hrest := Nat.mod_lt num hden
  rw [roundHalfEven]
  generalize num / den = q at *
  generalize num % den = r at *
  rcases Nat.lt_trichotomy q s with hbelow | rfl | habove
  · -- the ratio lies in the upper half of the unit before `s`
    have hunit := Nat.mul_le_mul_right den hbelow
    rw [Nat.succ_mul] at hunit
    have hlast : s = q + 1 := by
      refine Nat.le_antisymm ?_ hbelow
      by_contra hfar
      have htwo := Nat.mul_le_mul_right den (Nat.lt_of_not_le hfar)
      rw [Nat.succ_mul, Nat.succ_mul] at htwo
      omega
    subst hlast
    rw [Nat.succ_mul] at hlow hhigh hodd
    exact if_pos (by omega)
  · exact if_neg (by omega)
  · have hunit := Nat.mul_le_mul_right den habove
    rw [Nat.succ_mul] at hunit
    omega

/-- The last place of a ratio. -/
theorem magnitudeOfUnits_eq (hden : 0 < den) (hplace : fractionSize * (den <<< d) ≤ num ∨ d = 0)
    (hhigh : num < wholeBound * (den <<< d)) (hround : roundHalfEven num (den <<< d) = s) :
    magnitudeOfUnits num den = min (d * fractionSize + s) infinityBits := by
  have hdropped : (num / den).log2 - 52 = d := by
    have hbound : num / den < 2 ^ (52 + d + 1) := by
      rw [Nat.div_lt_iff_lt_mul hden, Nat.add_right_comm, Nat.pow_add, Nat.mul_assoc,
        Nat.mul_comm _ den, ← Nat.shiftLeft_eq]
      exact hhigh
    rcases hplace with hlow | rfl
    · have hlow : 2 ^ (52 + d) ≤ num / den := by
        rw [Nat.le_div_iff_mul_le hden, Nat.pow_add, Nat.mul_assoc, Nat.mul_comm _ den,
          ← Nat.shiftLeft_eq]
        exact hlow
      have hne : num / den ≠ 0 := Nat.ne_of_gt (Nat.lt_of_lt_of_le (Nat.two_pow_pos _) hlow)
      rw [(Nat.log2_eq_iff hne).mpr ⟨hlow, hbound⟩, Nat.add_sub_cancel_left]
    · rcases Nat.eq_zero_or_pos (num / den) with hzero | hpos
      · rw [hzero]
        rfl
      · have hlog := (Nat.log2_lt (Nat.ne_of_gt hpos)).mpr hbound
        omega
  rw [magnitudeOfUnits, hdropped, hround]

end Binary64

-- ---------------------------------------------------------------------------
-- Rounding intervals
-- ---------------------------------------------------------------------------

namespace Decimal

open Binary64 (IsPlace exists_place fractionSize wholeBound infinityBits unitsOfMagnitude
  roundHalfEven magnitudeOfUnits roundHalfEven_eq magnitudeOfUnits_eq)

theorem shiftLeft_mul (s d den : Nat) : s <<< d * den = s * (den <<< d) := by
  rw [Nat.shiftLeft_eq, Nat.shiftLeft_eq, Nat.mul_assoc, Nat.mul_comm den]

variable {s d : Nat}

/-- The upper end of an interval is half a step above the number. -/
theorem upper_end (hplace : IsPlace s d) (den : Nat) :
    (RoundingInterval.ofMagnitude (d * fractionSize + s)).high * den =
      4 * (s * (den <<< d)) + 2 * (den <<< d) := by
  rw [RoundingInterval.ofMagnitude, hplace.units, hplace.units_succ, Nat.mul_assoc, Nat.add_mul,
    shiftLeft_mul, shiftLeft_mul, Nat.add_one_mul s]
  omega

/-- The lower end of an interval is half a step below the number. -/
theorem lower_end (hplace : IsPlace s d) (hinner : fractionSize < s ∨ d = 0) (den : Nat) :
    4 * (s * (den <<< d)) ≤
      (RoundingInterval.ofMagnitude (d * fractionSize + s)).low * den + 2 * (den <<< d) := by
  cases s with
  | zero => omega
  | succ s =>
    have hbelow : IsPlace s d :=
      ⟨Nat.lt_of_succ_lt hplace.1, hinner.imp_left Nat.le_of_lt_succ⟩
    rw [RoundingInterval.ofMagnitude, hplace.units, ← Nat.add_assoc, Nat.add_sub_cancel,
      hbelow.units, Nat.mul_assoc, Nat.add_mul (s <<< d), shiftLeft_mul, shiftLeft_mul,
      Nat.add_one_mul s]
    omega

/-- Below the first number with an exponent the steps are half as wide. -/
theorem lower_end_first (d den : Nat) :
    8 * (fractionSize * (den <<< d)) = (RoundingInterval.ofMagnitude
      ((d + 1) * fractionSize + fractionSize)).low * den + 2 * (den <<< d) := by
  have hplace : IsPlace fractionSize (d + 1) := ⟨by decide, .inl (Nat.le_refl _)⟩
  have hbelow : IsPlace (wholeBound - 1) d := ⟨by decide, .inl (by decide)⟩
  have hlast : (d + 1) * fractionSize + fractionSize - 1 = d * fractionSize + (wholeBound - 1) := by
    rw [wholeBound, Nat.succ_mul]
    simp only [fractionSize]
    omega
  rw [RoundingInterval.ofMagnitude, hplace.units, hlast, hbelow.units, Nat.mul_assoc, Nat.add_mul,
    shiftLeft_mul, shiftLeft_mul, Nat.shiftLeft_succ]
  simp only [fractionSize, wholeBound]
  omega

theorem shiftLeft_pos {den : Nat} (hden : 0 < den) (d : Nat) : 0 < den <<< d := by
  rw [Nat.shiftLeft_eq]
  exact Nat.mul_pos hden (Nat.two_pow_pos d)

/-- Below the first number with an exponent, what lies in its interval is rounded up to it. -/
theorem magnitudeOfUnits_below_first {num den : Nat} (hden : 0 < den)
    (hlow : (RoundingInterval.ofMagnitude ((d + 1) * fractionSize + fractionSize)).low * den ≤
      4 * num) (hbelow : num < fractionSize * (den <<< (d + 1))) :
    magnitudeOfUnits num den = min ((d + 1) * fractionSize + fractionSize) infinityBits := by
  have hend := lower_end_first d den
  have hhalf := shiftLeft_pos hden d
  have hmany : den <<< d ≤ fractionSize * (den <<< d) := Nat.le_mul_of_pos_left _ (by decide)
  have hwide : wholeBound * (den <<< d) = 2 * (fractionSize * (den <<< d)) := Nat.mul_assoc ..
  rw [Nat.shiftLeft_succ, Nat.mul_left_comm] at hbelow
  have hround : roundHalfEven num (den <<< d) = wholeBound :=
    roundHalfEven_eq (by omega) (by omega) hhalf nofun
  have hcarry : d * fractionSize + wholeBound = (d + 1) * fractionSize + fractionSize := by
    rw [wholeBound, Nat.add_one_mul d]
    omega
  rw [magnitudeOfUnits_eq hden (.inl (by omega)) (by omega) hround, hcarry]

/-- What lies in the interval of a number is rounded to the number. -/
theorem magnitudeOfUnits_of_contains {m num den : Nat} (hden : 0 < den) (hfinite : m < infinityBits)
    (h : (RoundingInterval.ofMagnitude m).contains (4 * num) den = true) :
    magnitudeOfUnits num den = m := by
  obtain ⟨s, d, hplace, rfl⟩ := exists_place m
  obtain ⟨hlow, hhigh, hopen⟩ := bounds_of_contains h
  have hopen : s % 2 = 1 → _ := fun hodd => hopen (decide_eq_false (by
    simp only [fractionSize]
    omega))
  have hstep := shiftLeft_pos hden d
  have hupper := upper_end hplace den
  have htop := Nat.mul_le_mul_right (den <<< d) hplace.1
  rw [Nat.succ_mul] at htop
  by_cases hinner : fractionSize * (den <<< d) ≤ num ∨ d = 0
  · have hlower : 2 * (s * (den <<< d)) ≤ 2 * num + den <<< d ∧
        (s % 2 = 1 → 2 * (s * (den <<< d)) < 2 * num + den <<< d) := by
      by_cases hfirst : fractionSize < s ∨ d = 0
      · have hlower := lower_end hplace hfirst den
        omega
      · -- the first number with an exponent, and the ratio is not below it
        obtain rfl : s = fractionSize := by
          have hsize := hplace.2
          omega
        omega
    rw [magnitudeOfUnits_eq hden hinner (by omega)
      (roundHalfEven_eq hlower.1 (by omega) hstep (by omega))]
    exact Nat.min_eq_left (Nat.le_of_lt hfinite)
  · -- the ratio lies below the first number with an exponent, among steps half as wide
    obtain ⟨hbelow, hsome⟩ := not_or.mp hinner
    obtain ⟨d, rfl⟩ := Nat.exists_eq_add_one_of_ne_zero hsome
    have hfirst : s = fractionSize := by
      refine Nat.le_antisymm ?_ (hplace.2.resolve_right hsome)
      by_contra hle
      have hmore := Nat.lt_of_not_le hle
      have hlower := lower_end hplace (.inl hmore) den
      have hnext := Nat.mul_le_mul_right (den <<< (d + 1)) hmore
      rw [Nat.succ_mul] at hnext
      omega
    subst hfirst
    rw [magnitudeOfUnits_below_first hden hlow (Nat.lt_of_not_le hbelow)]
    exact Nat.min_eq_left (Nat.le_of_lt hfinite)

-- ---------------------------------------------------------------------------
-- Decimals
-- ---------------------------------------------------------------------------

theorem tenPow_le {a b : Nat} (h : a ≤ b) : tenPow a ≤ tenPow b :=
  Nat.pow_le_pow_right (by decide) h

theorem tenPower_natCast (k : Nat) : tenPower k = (tenPow k, 1) := by
  rw [tenPower, if_pos (Int.natCast_nonneg k), Int.toNat_natCast]

theorem tenPower_neg (k : Nat) : tenPower (-(k : Int)) = (1, tenPow k) := by
  cases k with
  | zero => rfl
  | succ k => rw [tenPower, if_neg (by omega), Int.neg_neg, Int.toNat_natCast]

variable {m c : Nat} {d : Decimal}

/-- A decimal that reads back as a number is not too small to be looked at. -/
theorem exponent_ge (hpos : 0 < m) (h : Reads (.ofMagnitude m) d)
    (hdigits : d.digits < tenPow c) : -exponentLimit ≤ c + d.exponent := by
  by_contra hsmall
  obtain ⟨k, hk, hplaces⟩ : ∃ k : Nat, d.exponent + c = -(k : Int) ∧ 400 ≤ k := by
    simp only [exponentLimit] at hsmall
    exact ⟨(-(d.exponent + c)).toNat, by omega, by omega⟩
  have hscale := tenPower_add d.exponent c
  rw [hk, tenPower_neg, Nat.one_mul] at hscale
  have hunit := Nat.mul_pos (tenPower_pos d.exponent).1 quartersPerOne_pos
  have hsize : tenPow k * tenPow c < quartersPerOne * tenPow c := by
    refine Nat.lt_of_mul_lt_mul_left (a := (tenPower d.exponent).1) ?_
    calc (tenPower d.exponent).1 * (tenPow k * tenPow c) = (tenPower d.exponent).2 := by
          rw [hscale, Nat.mul_assoc]
      _ ≤ (RoundingInterval.ofMagnitude m).low * (tenPower d.exponent).2 :=
        Nat.le_mul_of_pos_left _ (low_pos hpos)
      _ ≤ d.digits * ((tenPower d.exponent).1 * quartersPerOne) := (bounds_of_contains h).1
      _ < tenPow c * ((tenPower d.exponent).1 * quartersPerOne) :=
        Nat.mul_lt_mul_of_pos_right hdigits hunit
      _ = (tenPower d.exponent).1 * (quartersPerOne * tenPow c) := by ac_rfl
  have hlimit : quartersPerOne ≤ tenPow 400 := by decide +kernel
  exact absurd (Nat.lt_of_mul_lt_mul_right hsize)
    (Nat.not_lt.mpr (Nat.le_trans hlimit (tenPow_le hplaces)))

/-- A decimal that reads back as a number is not too large to be looked at. -/
theorem exponent_le (hfinite : m < infinityBits) (h : Reads (.ofMagnitude m) d)
    (hdigits : tenPow c ≤ d.digits) : (c + 1 : Nat) + d.exponent ≤ exponentLimit := by
  by_contra hlarge
  obtain ⟨k, hk, hplaces⟩ : ∃ k : Nat, d.exponent + c = k ∧ 400 ≤ k := by
    simp only [exponentLimit] at hlarge
    exact ⟨(d.exponent + c).toNat, by omega, by omega⟩
  have hscale := tenPower_add d.exponent c
  rw [hk, tenPower_natCast, Nat.mul_one] at hscale
  have hend : (RoundingInterval.ofMagnitude m).high ≤ 1 <<< 2100 := by
    have hunits := Binary64.unitsOfMagnitude_lt hfinite
    have hnext : unitsOfMagnitude (m + 1) ≤ 1 <<< 2098 := by
      rcases Nat.lt_or_eq_of_le (Nat.succ_le_of_lt hfinite) with hless | hlast
      · exact Nat.le_of_lt (Binary64.unitsOfMagnitude_lt hless)
      · rw [← Nat.succ_eq_add_one, hlast]
        decide +kernel
    have hfour : 1 <<< 2100 = 4 * 1 <<< 2098 := by decide +kernel
    rw [hfour]
    show 2 * (unitsOfMagnitude m + unitsOfMagnitude (m + 1)) ≤ _
    omega
  have hsize : tenPow k * quartersPerOne ≤ 1 <<< 2100 := by
    refine Nat.le_of_mul_le_mul_right ?_ (tenPower_pos d.exponent).2
    calc tenPow k * quartersPerOne * (tenPower d.exponent).2
        = tenPow c * ((tenPower d.exponent).1 * quartersPerOne) := by
          rw [Nat.mul_right_comm, hscale]
          ac_rfl
      _ ≤ d.digits * ((tenPower d.exponent).1 * quartersPerOne) := Nat.mul_le_mul_right _ hdigits
      _ ≤ (RoundingInterval.ofMagnitude m).high * (tenPower d.exponent).2 :=
        (bounds_of_contains h).2.1
      _ ≤ 1 <<< 2100 * (tenPower d.exponent).2 := Nat.mul_le_mul_right _ hend
  have hlimit : 1 <<< 2100 < tenPow 400 * quartersPerOne := by decide +kernel
  exact absurd (Nat.le_trans (Nat.mul_le_mul_right _ (tenPow_le hplaces)) hsize)
    (Nat.not_le.mpr hlimit)

/-- A decimal that reads back as a number is nearest to it. -/
theorem nearest_of_reads (negative : Bool) (hpos : 0 < m) (hfinite : m < infinityBits)
    (h : Reads (.ofMagnitude m) d) (hlow : tenPow c ≤ d.digits)
    (hhigh : d.digits < tenPow (c + 1)) :
    nearest negative d.digits (c + 1) d.exponent = .ofMagnitude negative m := by
  have hdigits : d.digits ≠ 0 := Nat.ne_of_gt (Nat.lt_of_lt_of_le (tenPow_pos c) hlow)
  have hge := exponent_ge hpos h hhigh
  have hle := exponent_le hfinite h hlow
  have hratio : nearest negative d.digits (c + 1) d.exponent =
      .ofRatio negative (d.digits * (tenPower d.exponent).1) (tenPower d.exponent).2 := by
    have hsome : ¬(decide (d.digits = 0) ||
        decide ((c + 1 : Nat) + d.exponent < -exponentLimit)) = true := by
      rw [Bool.or_eq_true, decide_eq_true_iff, decide_eq_true_iff, not_or]
      exact ⟨hdigits, Int.not_lt.mpr hge⟩
    rw [nearest, if_neg hsome, if_neg (Int.not_lt.mpr hle), tenPower]
    split
    · rfl
    · rw [Nat.mul_one]
  have hcontains : (RoundingInterval.ofMagnitude m).contains
      (4 * (d.digits * (tenPower d.exponent).1 * Binary64.unitsPerOne))
      (tenPower d.exponent).2 = true := by
    rw [← h]
    congr 1
    rw [quartersPerOne]
    ac_rfl
  rw [hratio, Binary64.ofRatio, Binary64.ofUnits,
    magnitudeOfUnits_of_contains (tenPower_pos _).2 hfinite hcontains]

end Decimal

end AffineSwarm
