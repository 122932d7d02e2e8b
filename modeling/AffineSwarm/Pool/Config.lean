import AffineSwarm.Error
import AffineSwarm.Formula

/-!
# Pool configuration

The size of the population, the length of seeded genes and the survival threshold.
-/

namespace AffineSwarm

structure PoolConfig where
  /-- Number of formulas; it never changes. -/
  population : Nat
  geneLength : Nat
  /-- A formula below this fitness is replaced. -/
  threshold : Binary64
  deriving DecidableEq, Repr

namespace PoolConfig

/-- Sixteen formulas of six digits, replaced below one half. -/
def standard : PoolConfig := ⟨16, 6, .half⟩

/-- The first setting that cannot be used is reported. -/
def validate (c : PoolConfig) : Except PoolError Unit :=
  if c.population = 0 then .error (.invalidConfig "population must be at least 1")
  else if c.geneLength < Coefficients.decodedDigits ∨ maxGeneLength < c.geneLength then
    .error (.invalidConfig ("gene_len must be within 4..=32, got " ++
      Decimal.digitText c.geneLength))
  else if !(Binary64.zero.le c.threshold && c.threshold.le .one) then
    .error (.invalidConfig "survival_threshold must be within [0, 1]")
  else .ok ()

theorem population_pos_of_validate {c : PoolConfig} (h : c.validate = .ok ()) :
    0 < c.population := by
  by_cases hc : c.population = 0
  · simp [validate, hc] at h
  · omega

/-- Whether a formula is replaced. The elite never is, even below the threshold. -/
def shouldCull (threshold fitness : Binary64) (isElite : Bool) : Bool :=
  !isElite && fitness.lt threshold

end PoolConfig

end AffineSwarm
