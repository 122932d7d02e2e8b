import AffineSwarm.Pool.Basic
import AffineSwarm.Proofs.Binary64.Order

/-!
# Immigration

What a pool does with a formula from elsewhere. The slot that an immigrant takes is one that
the pool has (`worstEntry_lt_size`), so the immigrant is there afterwards
(`exists_mem_absorb`); and whether it was taken in or was there already, the next formula
with that gene is a duplicate (`position_absorb`).
-/

namespace AffineSwarm

theorem lastWorst_go_lt {index : Nat} {worst : Nat × Formula} (h : worst.1 < index)
    (fs : List Formula) : (lastWorst.go index worst fs).1 < index + fs.length := by
  induction fs generalizing index worst with
  | nil => exact h
  | cons f rest ih =>
    rw [lastWorst.go, List.length_cons, Nat.add_comm rest.length, ← Nat.add_assoc]
    by_cases hle : f.fitness.le worst.2.fitness = true
    · rw [if_pos hle]
      exact ih (Nat.lt_succ_self index)
    · rw [if_neg hle]
      exact ih (Nat.lt_succ_of_lt h)

namespace Pool

variable {σ : Type} {p : Pool σ} {f : Formula}

theorem worstEntry_lt_size (p : Pool σ) : p.worstEntry.1 < p.size := by
  have hlt : p.worstEntry.1 < 1 + p.formulas.tail.length :=
    lastWorst_go_lt Nat.zero_lt_one p.formulas.tail
  have hsize : p.size = p.formulas.tail.length + 1 :=
    (congrArg List.length (List.cons_head_tail p.formulas_ne)).symm
  rwa [hsize, Nat.add_comm]

theorem absorb_of_position (h : p.position f.gene = none) :
    p.absorb f =
      (.replaced p.worstEntry.1, p.setFormula p.worstEntry.1 (.withFitness f.gene f.fitness)) := by
  rw [absorb, h]

/-- A formula with a new gene is there afterwards, with its fitness kept within bounds. -/
theorem mem_absorb (h : p.position f.gene = none) :
    Formula.withFitness f.gene f.fitness ∈ (p.absorb f).2.formulas := by
  rw [absorb_of_position h]
  exact List.mem_set p.worstEntry_lt_size _

/-- The gene of a formula is there afterwards, new or not. -/
theorem position_absorb (p : Pool σ) (f : Formula) :
    ∃ slot, (p.absorb f).2.position f.gene = some slot := by
  cases h : p.position f.gene with
  | some slot =>
    refine ⟨slot, ?_⟩
    rw [absorb, h]
    exact h
  | none =>
    refine Option.isSome_iff_exists.mp ?_
    rw [position, List.findIdx?_isSome]
    exact List.any_eq_true.mpr ⟨_, mem_absorb h, decide_eq_true rfl⟩

end Pool

end AffineSwarm
