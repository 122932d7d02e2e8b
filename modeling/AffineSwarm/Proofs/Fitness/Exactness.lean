import AffineSwarm.Fitness
import AffineSwarm.Proofs.Binary64.Whole

/-!
# Exact scores

Nothing is lost in scoring a formula. The value of the affine function and its distance from a
target are computed in 64-bit words; all intermediate results fit, so the words are the integers
that they stand for (`toInt_product`, `toInt_wide`, `narrow_wide`, `toNat_wordError`). The error
on an example is below `2^32`, and errors are added as doubles. On at most 32 examples every
partial sum is a whole number below `2^53`, so the double is that number (`totalError_eq`). An
exact sum does not depend on the order of its terms (`totalError_perm`).
-/

namespace AffineSwarm

-- ---------------------------------------------------------------------------
-- Words
-- ---------------------------------------------------------------------------

theorem int32_bounds (n : Int32) : -2147483648 ≤ n.toInt ∧ n.toInt < 2147483648 :=
  ⟨n.le_toInt, n.toInt_lt⟩

/-- An integer that fits into 64 bits is left as it is. -/
theorem int64_bmod_eq {n : Int} (hlow : -9223372036854775808 ≤ n)
    (hhigh : n < 9223372036854775808) : n.bmod 18446744073709551616 = n :=
  Int.bmod_eq_of_le (by omega) (by omega)

/-- The absolute value in words is the absolute value. -/
theorem int64_toNat_abs (n : Int64) : n.abs.toUInt64.toNat = n.toInt.natAbs := by
  have hnat : n.abs.toUInt64.toNat = n.toBitVec.abs.toNat := rfl
  have hint : n.toInt = n.toBitVec.toInt := rfl
  have hlt := n.toBitVec.isLt
  rw [hnat, hint, BitVec.toNat_abs, BitVec.toInt_eq_msb_cond]
  split
  · omega
  · omega

namespace Coefficients

/-- The value before saturation, computed in 64-bit words. -/
def wide (c : Coefficients) (input : Int32) : Int64 :=
  c.slope.toInt64 * input.toInt64 + c.bias.toInt64

/-- The nearest 32-bit word of a 64-bit word. -/
def narrow (n : Int64) : Int32 :=
  let low := Int32.minValue.toInt64
  let high := Int32.maxValue.toInt64
  (if n < low then low else if high < n then high else n).toInt32

theorem product_bounds (a b : Int32) :
    -4611686018427387904 ≤ a.toInt * b.toInt ∧ a.toInt * b.toInt ≤ 4611686018427387904 := by
  have ha := int32_bounds a
  have hb := int32_bounds b
  have hsize : (a.toInt * b.toInt).natAbs ≤ 2147483648 * 2147483648 := by
    rw [Int.natAbs_mul]
    exact Nat.mul_le_mul (by omega) (by omega)
  omega

theorem toInt_product (a b : Int32) : (a.toInt64 * b.toInt64).toInt = a.toInt * b.toInt := by
  have := product_bounds a b
  rw [Int64.toInt_mul, Int32.toInt_toInt64, Int32.toInt_toInt64]
  exact int64_bmod_eq (by omega) (by omega)

theorem toInt_wide (c : Coefficients) (input : Int32) :
    (c.wide input).toInt = c.slope.toInt * input.toInt + c.bias.toInt := by
  have := product_bounds c.slope input
  have := int32_bounds c.bias
  rw [wide, Int64.toInt_add, toInt_product, Int32.toInt_toInt64]
  exact int64_bmod_eq (by omega) (by omega)

theorem toInt_apply (c : Coefficients) (input : Int32) :
    (c.apply input).toInt = max Int32.minValue.toInt
      (min Int32.maxValue.toInt (c.slope.toInt * input.toInt + c.bias.toInt)) := by
  have hlow : Int32.minValue.toInt = -2147483648 := rfl
  have hhigh : Int32.maxValue.toInt = 2147483647 := rfl
  have hsize : Int32.size = 4294967296 := rfl
  rw [apply, saturate, Int32.toInt_ofInt, hlow, hhigh, hsize]
  exact Int.bmod_eq_of_le (by omega) (by omega)

/-- The value computed in words is the value. -/
theorem narrow_wide (c : Coefficients) (input : Int32) : narrow (c.wide input) = c.apply input := by
  have hlow : Int32.minValue.toInt64.toInt = -2147483648 := rfl
  have hhigh : Int32.maxValue.toInt64.toInt = 2147483647 := rfl
  have hlow' : Int32.minValue.toInt = -2147483648 := rfl
  have hhigh' : Int32.maxValue.toInt = 2147483647 := rfl
  rw [← Int32.toInt_inj, toInt_apply, ← toInt_wide, hlow', hhigh', narrow, Int64.toInt_toInt32]
  simp only [Int64.lt_iff_toInt_lt, hlow, hhigh]
  split
  · rw [hlow]
    rw [Int.bmod_eq_of_le] <;> omega
  · split
    · rw [hhigh]
      rw [Int.bmod_eq_of_le] <;> omega
    · rw [Int.bmod_eq_of_le] <;> omega

end Coefficients

namespace Formula

/-- The error on an example, computed in 64-bit words. -/
def wordError (f : Formula) (e : Example) : UInt64 :=
  ((f.apply e.input).toInt64 - e.target.toInt64).abs.toUInt64

theorem absError_lt (f : Formula) (e : Example) : f.absError e < 4294967296 := by
  have := int32_bounds (f.apply e.input)
  have := int32_bounds e.target
  rw [absError]
  omega

theorem toInt_difference (f : Formula) (e : Example) :
    ((f.apply e.input).toInt64 - e.target.toInt64).toInt =
      (f.apply e.input).toInt - e.target.toInt := by
  have := int32_bounds (f.apply e.input)
  have := int32_bounds e.target
  rw [Int64.toInt_sub, Int32.toInt_toInt64, Int32.toInt_toInt64]
  exact int64_bmod_eq (by omega) (by omega)

/-- The error computed in words is the error. -/
theorem toNat_wordError (f : Formula) (e : Example) : (f.wordError e).toNat = f.absError e := by
  rw [wordError, int64_toNat_abs, toInt_difference, absError]

-- ---------------------------------------------------------------------------
-- Sums
-- ---------------------------------------------------------------------------

/-- The sum of the absolute errors, as a number. -/
def errorSum (f : Formula) (examples : List Example) : Nat := (examples.map f.absError).sum

theorem errorSum_le (f : Formula) (examples : List Example) :
    f.errorSum examples ≤ examples.length * 4294967296 := by
  induction examples with
  | nil => exact Nat.zero_le _
  | cons e rest ih =>
    have := f.absError_lt e
    rw [errorSum] at ih
    rw [errorSum, List.map_cons, List.sum_cons, List.length_cons, Nat.succ_mul]
    omega

theorem errorSum_lt {examples : List Example} (few : examples.length ≤ maxExamples)
    (f : Formula) : f.errorSum examples < Binary64.wholeBound := by
  have := f.errorSum_le examples
  simp only [maxExamples] at few
  simp only [Binary64.wholeBound, Binary64.fractionSize]
  omega

/-- The sum that is computed is the sum. -/
theorem totalError_eq {examples : List Example} (few : examples.length ≤ maxExamples)
    (f : Formula) : f.totalError examples = .ofNat (f.errorSum examples) := by
  have hzero : Binary64.zero = .ofNat 0 := by decide
  have hsum := Binary64.foldl_add_ofNat (examples.map f.absError) 0 (by
    rw [Nat.zero_add]
    exact errorSum_lt few f)
  rw [Nat.zero_add, ← hzero, List.foldl_map] at hsum
  exact hsum

theorem errorSum_perm {examples examples' : List Example} (h : examples.Perm examples')
    (f : Formula) : f.errorSum examples = f.errorSum examples' :=
  (h.map f.absError).sum_nat

theorem totalError_perm {examples examples' : List Example} (h : examples.Perm examples')
    (few : examples.length ≤ maxExamples) (f : Formula) :
    f.totalError examples = f.totalError examples' := by
  rw [totalError_eq few, totalError_eq (h.length_eq ▸ few), errorSum_perm h]

/-- The fitness of a formula does not depend on the order of the examples. -/
theorem evaluate_perm {examples examples' : List Example} (h : examples.Perm examples')
    (few : examples.length ≤ maxExamples) (f : Formula) :
    f.evaluate examples = f.evaluate examples' := by
  rw [evaluate, evaluate, totalError_perm h few]

end Formula

end AffineSwarm
