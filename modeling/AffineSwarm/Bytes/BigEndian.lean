/-!
# Big-endian integers

Integers travel most significant byte first, in a fixed number of bytes. Writing and
reading are inverse to each other: `toNat_ofNat` on numbers that fit the width,
`ofNat_toNat` on all byte strings of that width.
-/

namespace AffineSwarm.BigEndian

/-- The lowest `width` bytes of `n`, most significant first. -/
def ofNat : Nat → Nat → List UInt8
  | 0, _ => []
  | width + 1, n => UInt8.ofNat (n >>> (8 * width)) :: ofNat width n

def toNat : List UInt8 → Nat
  | [] => 0
  | b :: rest => b.toNat <<< (8 * rest.length) + toNat rest

/-- How many numbers have so many bytes. -/
def count (width : Nat) : Nat := 1 <<< (8 * width)

@[simp] theorem count_zero : count 0 = 1 := rfl

theorem count_succ (width : Nat) : count (width + 1) = count width * 256 := by
  simp [count, Nat.shiftLeft_eq, Nat.mul_add, Nat.pow_add]

theorem count_pos (width : Nat) : 0 < count width := by
  rw [count, Nat.shiftLeft_eq, Nat.one_mul]
  exact Nat.pow_pos (by decide)

theorem shiftRight_eq (width n : Nat) : n >>> (8 * width) = n / count width := by
  rw [Nat.shiftRight_eq_div_pow, count, Nat.shiftLeft_eq, Nat.one_mul]

theorem shiftLeft_eq (width n : Nat) : n <<< (8 * width) = n * count width := by
  rw [Nat.shiftLeft_eq, count, Nat.shiftLeft_eq, Nat.one_mul]

@[simp] theorem length_ofNat (width n : Nat) : (ofNat width n).length = width := by
  induction width with
  | zero => rfl
  | succ width ih => simp [ofNat, ih]

theorem toNat_lt (bytes : List UInt8) : toNat bytes < count bytes.length := by
  induction bytes with
  | nil => simp [toNat]
  | cons b rest ih =>
    have hb : b.toNat + 1 ≤ 256 := b.toNat_lt
    have hmul := Nat.mul_le_mul_right (count rest.length) hb
    rw [Nat.add_mul, Nat.one_mul] at hmul
    simp only [toNat, List.length_cons, count_succ, shiftLeft_eq]
    omega

theorem toNat_ofNat (width n : Nat) : toNat (ofNat width n) = n % count width := by
  induction width with
  | zero => simp [ofNat, toNat, Nat.mod_one]
  | succ width ih =>
    have split : n % count (width + 1) =
        n % count width + count width * (n / count width % 256) := by
      rw [count_succ]
      exact Nat.mod_mul
    simp only [ofNat, toNat, ih, length_ofNat, UInt8.toNat_ofNat', shiftRight_eq, shiftLeft_eq,
      split]
    rw [Nat.mul_comm, Nat.add_comm]

theorem ofNat_add_mul (width n k : Nat) : ofNat width (n + k * count width) = ofNat width n := by
  induction width generalizing k with
  | zero => rfl
  | succ width ih =>
    have hcount : k * count (width + 1) = k * 256 * count width := by
      rw [count_succ, Nat.mul_comm (count width), Nat.mul_assoc]
    simp only [ofNat, hcount, ih, shiftRight_eq, List.cons.injEq, and_true]
    apply UInt8.toNat_inj.mp
    rw [Nat.add_mul_div_right _ _ (count_pos width)]
    simp

theorem ofNat_toNat (bytes : List UInt8) : ofNat bytes.length (toNat bytes) = bytes := by
  induction bytes with
  | nil => rfl
  | cons b rest ih =>
    have hlt := toNat_lt rest
    simp only [List.length_cons, ofNat, toNat, shiftRight_eq, shiftLeft_eq, List.cons.injEq]
    refine ⟨?_, ?_⟩
    · rw [Nat.add_comm, Nat.add_mul_div_right _ _ (count_pos rest.length),
        Nat.div_eq_of_lt hlt]
      simp
    · rw [Nat.add_comm, ofNat_add_mul, ih]

end AffineSwarm.BigEndian
