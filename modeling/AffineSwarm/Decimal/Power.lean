/-! # Powers of ten -/

namespace AffineSwarm.Decimal

def tenPow (n : Nat) : Nat := Nat.pow 10 n

@[simp] theorem tenPow_zero : tenPow 0 = 1 := rfl

theorem tenPow_succ (n : Nat) : tenPow (n + 1) = tenPow n * 10 := Nat.pow_succ ..

theorem tenPow_pos (n : Nat) : 0 < tenPow n := Nat.pow_pos (by decide)

end AffineSwarm.Decimal
