import AffineSwarm.Decimal.Shortest
import AffineSwarm.Proofs.Binary64.Whole

/-!
# Seventeen digits suffice

The decimal that is written for a number lies in the rounding interval of the number, so it
reads back as the number (`reads_shortest`). The search for it starts at a power of ten that is
not above the number (`atMost_leadingExponent`), because the estimate of the leading exponent is
at most two too high: over all binary exponents this is a finite check. Seventeen grids further
down, the grid is finer than half the interval (`onGrid?_isSome`), so by then the search has
found something.
-/

namespace AffineSwarm

-- ---------------------------------------------------------------------------
-- Neighbouring numbers
-- ---------------------------------------------------------------------------

namespace Binary64

/-- A significand stands in its place, or it is the fraction of a subnormal number. -/
def IsPlace (s d : Nat) : Prop := s < wholeBound ∧ (fractionSize ≤ s ∨ d = 0)

theorem IsPlace.units {s d : Nat} (h : IsPlace s d) :
    unitsOfMagnitude (d * fractionSize + s) = s <<< d := by
  rcases Nat.lt_or_ge s fractionSize with hsub | hlow
  · obtain rfl : d = 0 := h.2.resolve_left (Nat.not_le.mpr hsub)
    rw [Nat.zero_mul, Nat.zero_add, unitsOfMagnitude, if_pos hsub, Nat.shiftLeft_zero]
  · exact unitsOfMagnitude_significand hlow h.1 d

/-- The next number is one step of the last place away. -/
theorem IsPlace.units_succ {s d : Nat} (h : IsPlace s d) :
    unitsOfMagnitude (d * fractionSize + s + 1) = (s + 1) <<< d := by
  by_cases hcarry : s + 1 < wholeBound
  · rw [Nat.add_assoc]
    exact IsPlace.units ⟨hcarry, h.2.imp_left Nat.le_succ_of_le⟩
  · have hlast : s + 1 = 2 * fractionSize := Nat.le_antisymm h.1 (Nat.not_lt.mp hcarry)
    have hnext : d * fractionSize + s + 1 = (d + 1) * fractionSize + fractionSize := by
      rw [Nat.succ_mul]
      omega
    rw [hnext, unitsOfMagnitude_significand (Nat.le_refl _) (by decide), hlast,
      Nat.shiftLeft_succ_inside]

theorem exists_place (m : Nat) : ∃ s d, IsPlace s d ∧ m = d * fractionSize + s := by
  rcases Nat.lt_or_ge m fractionSize with hsub | hnormal
  · have hbound : wholeBound = 2 * fractionSize := rfl
    exact ⟨m, 0, ⟨by omega, .inr rfl⟩, by omega⟩
  · have hsplit := Nat.div_add_mod' m fractionSize
    have hrest : m % fractionSize < fractionSize := Nat.mod_lt m (by decide)
    have hplace : 1 ≤ m / fractionSize := (Nat.one_le_div_iff (by decide)).mpr hnormal
    refine ⟨fractionSize + m % fractionSize, m / fractionSize - 1,
      ⟨?_, .inl (Nat.le_add_right ..)⟩, ?_⟩
    · rw [wholeBound]
      omega
    · have hfirst := Nat.mul_le_mul_right fractionSize hplace
      rw [Nat.sub_one_mul]
      omega

/-- The next number is a step away, against which the number is not large. -/
theorem unitsOfMagnitude_succ (m : Nat) :
    ∃ gap, 0 < gap ∧ unitsOfMagnitude (m + 1) = unitsOfMagnitude m + gap ∧
      unitsOfMagnitude m < wholeBound * gap := by
  obtain ⟨s, d, hplace, rfl⟩ := exists_place m
  refine ⟨1 <<< d, one_shiftLeft_pos d, ?_, ?_⟩
  · rw [hplace.units_succ, hplace.units, shiftLeft_one (s + 1), shiftLeft_one s, ← Nat.succ_mul]
  · rw [hplace.units, shiftLeft_one]
    exact Nat.mul_lt_mul_of_pos_right hplace.1 (one_shiftLeft_pos d)

theorem unitsOfMagnitude_pred_le (m : Nat) : unitsOfMagnitude (m - 1) ≤ unitsOfMagnitude m := by
  cases m with
  | zero => exact Nat.le_refl _
  | succ m =>
    obtain ⟨gap, -, hnext, -⟩ := unitsOfMagnitude_succ m
    rw [Nat.add_sub_cancel, hnext]
    exact Nat.le_add_right ..

theorem unitsOfMagnitude_pos {m : Nat} (h : 0 < m) : 0 < unitsOfMagnitude m := by
  cases m with
  | zero => exact absurd h (Nat.lt_irrefl 0)
  | succ m =>
    obtain ⟨gap, hgap, hnext, -⟩ := unitsOfMagnitude_succ m
    omega

/-- A finite number has a bounded number of binary places. -/
theorem unitsOfMagnitude_lt {m : Nat} (h : m < infinityBits) :
    unitsOfMagnitude m < 1 <<< 2098 := by
  obtain ⟨s, d, hplace, rfl⟩ := exists_place m
  have hd : d ≤ 2045 := by
    have hlow := hplace.2
    simp only [fractionSize, infinityBits] at h hlow
    omega
  rw [hplace.units, Nat.shiftLeft_eq]
  calc s * 2 ^ d < wholeBound * 2 ^ d :=
        Nat.mul_lt_mul_of_pos_right hplace.1 (Nat.two_pow_pos d)
    _ ≤ wholeBound * 2 ^ 2045 :=
      Nat.mul_le_mul_left _ (Nat.pow_le_pow_right Nat.two_pos hd)
    _ = 1 <<< 2098 := by decide +kernel

end Binary64

-- ---------------------------------------------------------------------------
-- Powers of ten
-- ---------------------------------------------------------------------------

namespace Decimal

open Binary64 (unitsOfMagnitude infinityBits)

theorem quartersPerOne_pos : 0 < quartersPerOne := by decide +kernel

theorem tenPower_pos (e : Int) : 0 < (tenPower e).1 ∧ 0 < (tenPower e).2 := by
  rw [tenPower]
  split
  · exact ⟨tenPow_pos _, Nat.one_pos⟩
  · exact ⟨Nat.one_pos, tenPow_pos _⟩

/-- The next power is ten times as much. -/
theorem tenPower_succ (e : Int) :
    (tenPower (e + 1)).1 * (tenPower e).2 = (tenPower e).1 * (tenPower (e + 1)).2 * 10 := by
  by_cases hnonneg : 0 ≤ e
  · have hplaces : (e + 1).toNat = e.toNat + 1 := by omega
    rw [tenPower, tenPower, if_pos hnonneg, if_pos (Int.le_add_one hnonneg), hplaces, tenPow_succ,
      Nat.mul_one, Nat.mul_one]
  · by_cases hlast : e = -1
    · subst hlast
      rfl
    · have hplaces : (-e).toNat = (-(e + 1)).toNat + 1 := by omega
      rw [tenPower, tenPower, if_neg hnonneg, if_neg (by omega), hplaces, tenPow_succ, Nat.one_mul,
        Nat.one_mul]

theorem tenPower_add (e : Int) (k : Nat) :
    (tenPower (e + k)).1 * (tenPower e).2 = (tenPower e).1 * (tenPower (e + k)).2 * tenPow k := by
  induction k with
  | zero => simp only [Int.natCast_zero, Int.add_zero, tenPow_zero, Nat.mul_one]
  | succ k ih =>
    refine Nat.eq_of_mul_eq_mul_right (tenPower_pos (e + k)).2 ?_
    have hsucc := tenPower_succ (e + k)
    rw [Int.natCast_succ, ← Int.add_assoc, tenPow_succ]
    calc (tenPower (e + k + 1)).1 * (tenPower e).2 * (tenPower (e + k)).2
        = (tenPower (e + k + 1)).1 * (tenPower (e + k)).2 * (tenPower e).2 :=
          Nat.mul_right_comm ..
      _ = (tenPower (e + k)).1 * (tenPower e).2 * ((tenPower (e + k + 1)).2 * 10) := by
        rw [hsucc]
        ac_rfl
      _ = (tenPower e).1 * (tenPower (e + k + 1)).2 * (tenPow k * 10) * (tenPower (e + k)).2 := by
        rw [ih]
        ac_rfl

-- ---------------------------------------------------------------------------
-- Reading back
-- ---------------------------------------------------------------------------

/-- The decimal lies in a rounding interval. -/
def Reads (i : RoundingInterval) (d : Decimal) : Prop :=
  i.contains (d.digits * ((tenPower d.exponent).1 * quartersPerOne)) (tenPower d.exponent).2 = true

variable {i : RoundingInterval}

/-- What lies in an interval lies between its ends, and apart from them if it is open. -/
theorem bounds_of_contains {n scale : Nat} (h : i.contains n scale = true) :
    i.low * scale ≤ n ∧ n ≤ i.high * scale ∧
      (i.closed = false → i.low * scale < n ∧ n < i.high * scale) := by
  rw [RoundingInterval.contains] at h
  cases hclosed : i.closed with
  | true =>
    rw [hclosed, if_pos rfl, Bool.and_eq_true, decide_eq_true_iff, decide_eq_true_iff] at h
    exact ⟨h.1, h.2, nofun⟩
  | false =>
    rw [hclosed, if_neg Bool.false_ne_true, Bool.and_eq_true, decide_eq_true_iff,
      decide_eq_true_iff] at h
    exact ⟨Nat.le_of_lt h.1, Nat.le_of_lt h.2, fun _ => h⟩

/-- Whether a ratio lies in an interval does not depend on how it is written. -/
theorem contains_eq_of_ratio {n n' scale scale' : Nat} (hscale : 0 < scale) (hscale' : 0 < scale')
    (h : n * scale' = n' * scale) : i.contains n scale = i.contains n' scale' := by
  have hle : ∀ bound, bound * scale ≤ n ↔ bound * scale' ≤ n' := by
    intro bound
    rw [← Nat.mul_le_mul_right_iff hscale', h, Nat.mul_right_comm, Nat.mul_le_mul_right_iff hscale]
  have hge : ∀ bound, n ≤ bound * scale ↔ n' ≤ bound * scale' := by
    intro bound
    rw [← Nat.mul_le_mul_right_iff hscale', h, Nat.mul_right_comm, Nat.mul_le_mul_right_iff hscale]
  have hlt : ∀ bound, bound * scale < n ↔ bound * scale' < n' := fun bound => by
    rw [← Nat.not_le, ← Nat.not_le, hge]
  have hgt : ∀ bound, n < bound * scale ↔ n' < bound * scale' := fun bound => by
    rw [← Nat.not_le, ← Nat.not_le, hle]
  simp only [RoundingInterval.contains, hle, hge, hlt, hgt]

/-- A decimal may be written with zeros at its end. -/
theorem reads_mul_tenPow {n k : Nat} {e : Int} :
    Reads i ⟨n * tenPow k, e⟩ ↔ Reads i ⟨n, e + k⟩ := by
  have hscale := tenPower_add e k
  rw [Reads, Reads, contains_eq_of_ratio (tenPower_pos e).2 (tenPower_pos (e + k)).2]
  calc n * tenPow k * ((tenPower e).1 * quartersPerOne) * (tenPower (e + k)).2
      = n * quartersPerOne * ((tenPower e).1 * (tenPower (e + k)).2 * tenPow k) := by ac_rfl
    _ = n * ((tenPower (e + k)).1 * quartersPerOne) * (tenPower e).2 := by
      rw [← hscale]
      ac_rfl

/-- Dropping zeros does not change the number. -/
theorem reads_dropZeros {n : Nat} {e : Int} (h : Reads i ⟨n, e⟩) (fuel : Nat) :
    Reads i (dropZeros fuel n e) := by
  induction fuel generalizing n e with
  | zero => exact h
  | succ fuel ih =>
    rw [dropZeros]
    split
    · next hzero =>
      have hn : n / 10 * tenPow 1 = n := Nat.div_mul_cancel (Nat.dvd_of_mod_eq_zero hzero)
      rw [← hn, reads_mul_tenPow] at h
      exact ih h
    · exact h

/-- What is found on a grid lies in the interval. -/
theorem reads_onGrid? {tie : Tie} {e : Int} {n : Nat} (h : onGrid? tie i e = some n) :
    Reads i ⟨n, e⟩ := by
  simp only [onGrid?] at h
  split at h
  · next hboth =>
    rw [Bool.and_eq_true, Bool.and_eq_true] at hboth
    obtain ⟨⟨-, hlower⟩, hupper⟩ := hboth
    -- the nearer neighbour is taken, and one of them if both are equally near
    split at h
    · cases h
      exact hlower
    · split at h
      · cases h
        exact hupper
      · cases tie with
        | up =>
          cases h
          exact hupper
        | even =>
          cases h
          split
          · exact hlower
          · exact hupper
  · split at h
    · next hlower =>
      rw [Bool.and_eq_true] at hlower
      cases h
      exact hlower.2
    · split at h
      · next hupper =>
        cases h
        exact hupper
      · cases h

/-- The multiple of a step next above the value lies in the interval, if the step is smaller
than the upper half of it. -/
theorem contains_above {den step : Nat} (hstep : 0 < step) (hlow : i.low ≤ i.value)
    (hfine : i.value * den + step < i.high * den) :
    i.contains ((i.value * den / step + 1) * step) den = true := by
  have hbelow : i.low * den ≤ i.value * den := Nat.mul_le_mul_right den hlow
  have habove : i.value * den < (i.value * den / step + 1) * step :=
    Nat.lt_mul_of_div_lt (Nat.lt_succ_self _) hstep
  have hnear : (i.value * den / step + 1) * step ≤ i.value * den + step := by
    rw [Nat.succ_mul]
    exact Nat.add_le_add_right (Nat.div_mul_le_self ..) step
  rw [RoundingInterval.contains]
  split
  · rw [Bool.and_eq_true, decide_eq_true_iff, decide_eq_true_iff]
    omega
  · rw [Bool.and_eq_true, decide_eq_true_iff, decide_eq_true_iff]
    omega

/-- A grid that is finer than the upper half of the interval has a hit. -/
theorem onGrid?_isSome (tie : Tie) {e : Int} (hlow : i.low ≤ i.value)
    (hfine : i.value * (tenPower e).2 + (tenPower e).1 * quartersPerOne <
      i.high * (tenPower e).2) : (onGrid? tie i e).isSome := by
  have hstep : 0 < (tenPower e).1 * quartersPerOne :=
    Nat.mul_pos (tenPower_pos e).1 quartersPerOne_pos
  simp only [onGrid?, contains_above hstep hlow hfine, Bool.and_true, if_true]
  split
  · split
    · rfl
    · split
      · rfl
      · cases tie <;> rfl
  · rfl

/-- What the search finds lies in the interval, if it finds something. -/
theorem reads_search {tie : Tie} {fuel k : Nat} {e : Int} (hk : k < fuel)
    (hhit : (onGrid? tie i (e - k)).isSome) : Reads i (search (onGrid? tie i) fuel e) := by
  induction fuel generalizing k e with
  | zero => exact absurd hk (Nat.not_lt_zero k)
  | succ fuel ih =>
    rw [search]
    cases hgrid : onGrid? tie i e with
    | some n => exact reads_onGrid? hgrid
    | none =>
      cases k with
      | zero =>
        rw [Int.natCast_zero, Int.sub_zero, hgrid] at hhit
        cases hhit
      | succ k =>
        have hplace : e - (k + 1 : Nat) = e - 1 - k := by omega
        rw [hplace] at hhit
        exact ih (Nat.lt_of_succ_lt_succ hk) hhit

-- ---------------------------------------------------------------------------
-- The leading exponent
-- ---------------------------------------------------------------------------

/-- The power of ten is not above the value, which is counted in quarters of a unit. -/
def AtMost (value : Nat) (e : Int) : Prop :=
  (tenPower e).1 * quartersPerOne ≤ value * (tenPower e).2

theorem atMost_leadingExponent {value fuel k : Nat} {e : Int} (hk : k < fuel)
    (hbelow : AtMost value (e - k)) : AtMost value (leadingExponent value fuel e) := by
  induction fuel generalizing k e with
  | zero => exact absurd hk (Nat.not_lt_zero k)
  | succ fuel ih =>
    simp only [leadingExponent]
    split
    · next hmost => exact hmost
    · next hmore =>
      cases k with
      | zero =>
        rw [Int.natCast_zero, Int.sub_zero] at hbelow
        exact absurd hbelow hmore
      | succ k =>
        have hplace : e - (k + 1 : Nat) = e - 1 - k := by omega
        rw [hplace] at hbelow
        exact ih (Nat.lt_of_succ_lt_succ hk) hbelow

/-- The power of ten two below the estimate is not above any number with that many binary
places. -/
theorem atMost_estimate : ∀ places < 2100,
    AtMost (1 <<< places) (((places : Int) - 1076) * 30103 / 100000 + 1 - (2 : Nat)) := by
  unfold AtMost
  decide +kernel

theorem AtMost.mono {value value' : Nat} {e : Int} (h : AtMost value e) (hle : value ≤ value') :
    AtMost value' e := Nat.le_trans h (Nat.mul_le_mul_right _ hle)

/-- Seventeen places below the leading one, the grid is finer than a step of the last place. -/
theorem fine_of_atMost {units gap : Nat} {e : Int} (hlead : AtMost (4 * units) (e + 17))
    (hunits : units < Binary64.wholeBound * gap) :
    (tenPower e).1 * quartersPerOne < 2 * gap * (tenPower e).2 := by
  have hadd : (tenPower (e + 17)).1 * (tenPower e).2 =
      (tenPower e).1 * (tenPower (e + 17)).2 * tenPow 17 := tenPower_add e 17
  have hcoarse : 4 * units < 2 * gap * tenPow 17 := by
    have hten : tenPow 17 = 100000000000000000 := rfl
    rw [hten]
    simp only [Binary64.wholeBound, Binary64.fractionSize] at hunits
    omega
  have hden := Nat.mul_pos (tenPower_pos (e + 17)).2 (tenPower_pos e).2
  rw [AtMost] at hlead
  refine Nat.lt_of_mul_lt_mul_right (a := (tenPower (e + 17)).2 * tenPow 17) ?_
  calc (tenPower e).1 * quartersPerOne * ((tenPower (e + 17)).2 * tenPow 17)
      = (tenPower e).1 * (tenPower (e + 17)).2 * tenPow 17 * quartersPerOne := by ac_rfl
    _ = (tenPower (e + 17)).1 * quartersPerOne * (tenPower e).2 := by
      rw [← hadd]
      exact Nat.mul_right_comm ..
    _ ≤ 4 * units * (tenPower (e + 17)).2 * (tenPower e).2 := Nat.mul_le_mul_right _ hlead
    _ = 4 * units * ((tenPower (e + 17)).2 * (tenPower e).2) := Nat.mul_assoc ..
    _ < 2 * gap * tenPow 17 * ((tenPower (e + 17)).2 * (tenPower e).2) :=
      Nat.mul_lt_mul_of_pos_right hcoarse hden
    _ = 2 * gap * (tenPower e).2 * ((tenPower (e + 17)).2 * tenPow 17) := by ac_rfl

-- ---------------------------------------------------------------------------
-- The shortest decimal
-- ---------------------------------------------------------------------------

theorem shiftLeft_log2_le {n : Nat} (h : n ≠ 0) : 1 <<< n.log2 ≤ n := by
  rw [Nat.shiftLeft_eq, Nat.one_mul]
  exact Nat.log2_self_le h

theorem log2_lt_of_lt_shiftLeft {n places : Nat} (hn : n ≠ 0) (h : n < 1 <<< places) :
    n.log2 < places := by
  rw [Nat.shiftLeft_eq, Nat.one_mul] at h
  exact (Nat.log2_lt hn).mpr h

/-- The search starts at a power of ten that is not above the number. -/
theorem atMost_lead {value : Nat} (hpos : 0 < value) (hbound : value < 1 <<< 2100) :
    AtMost value
      (leadingExponent value 4 (((value.log2 : Int) - 1076) * 30103 / 100000 + 1)) := by
  have hne : value ≠ 0 := Nat.ne_of_gt hpos
  have hplaces := log2_lt_of_lt_shiftLeft hne hbound
  exact atMost_leadingExponent (by decide)
    ((atMost_estimate _ hplaces).mono (shiftLeft_log2_le hne))

/-- The decimal that is written for a finite number reads back as the number. -/
theorem reads_shortest (tie : Tie) {m : Nat} (hpos : 0 < m) (hfinite : m < infinityBits) :
    Reads (.ofMagnitude m) (shortest tie m) := by
  obtain ⟨gap, -, hnext, hsmall⟩ := Binary64.unitsOfMagnitude_succ m
  have hunits := Binary64.unitsOfMagnitude_pos hpos
  have hbound : 4 * unitsOfMagnitude m < 1 <<< 2100 := by
    have hscale : 1 <<< 2100 = 4 * 1 <<< 2098 := by decide +kernel
    rw [hscale]
    exact Nat.mul_lt_mul_of_pos_left (Binary64.unitsOfMagnitude_lt hfinite) (by decide)
  have hlead := atMost_lead (Nat.mul_pos (by decide : 0 < 4) hunits) hbound
  simp only [shortest]
  generalize hi : RoundingInterval.ofMagnitude m = i
  have hvalue : i.value = 4 * unitsOfMagnitude m := by rw [← hi]; rfl
  have hhigh : i.high = i.value + 2 * gap := by
    rw [← hi]
    show 2 * (unitsOfMagnitude m + unitsOfMagnitude (m + 1)) = 4 * unitsOfMagnitude m + 2 * gap
    omega
  have hlow : i.low ≤ i.value := by
    have hpred := Binary64.unitsOfMagnitude_pred_le m
    rw [← hi]
    show 2 * (unitsOfMagnitude (m - 1) + unitsOfMagnitude m) ≤ 4 * unitsOfMagnitude m
    omega
  rw [← hvalue] at hlead
  generalize leadingExponent i.value 4 _ = lead at hlead ⊢
  have hstart : AtMost (4 * unitsOfMagnitude m) (lead - 17 + 17) := by
    rwa [Int.sub_add_cancel, ← hvalue]
  have hfine : (tenPower (lead - 17)).1 * quartersPerOne < 2 * gap * (tenPower (lead - 17)).2 :=
    fine_of_atMost hstart hsmall
  have hhit : (onGrid? tie i (lead - (17 : Nat))).isSome := by
    refine onGrid?_isSome tie hlow ?_
    rw [hhigh, Nat.add_mul]
    exact Nat.add_lt_add_left hfine _
  have hfound : Reads i (search (onGrid? tie i) 18 lead) := reads_search (by decide) hhit
  generalize search (onGrid? tie i) 18 lead = found at hfound ⊢
  obtain ⟨n, e⟩ := found
  exact reads_dropZeros hfound 18

theorem low_pos {m : Nat} (hpos : 0 < m) : 0 < (RoundingInterval.ofMagnitude m).low := by
  have hunits := Binary64.unitsOfMagnitude_pos hpos
  show 0 < 2 * (unitsOfMagnitude (m - 1) + unitsOfMagnitude m)
  omega

/-- Zero reads back as no other number. -/
theorem digits_ne_zero_of_reads {m : Nat} {d : Decimal} (hpos : 0 < m)
    (h : Reads (.ofMagnitude m) d) : d.digits ≠ 0 := by
  intro hzero
  have hlow := (bounds_of_contains h).1
  rw [hzero, Nat.zero_mul] at hlow
  exact absurd hlow (Nat.not_le.mpr (Nat.mul_pos (low_pos hpos) (tenPower_pos d.exponent).2))

end Decimal

end AffineSwarm
