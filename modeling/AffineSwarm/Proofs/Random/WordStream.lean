import AffineSwarm.Random.WordStream
import Mathlib.Data.Stream.Defs

/-!
# What can be drawn

A draw below a bound gives a number below that bound, whatever words the stream has. A word is
scaled by keeping the high part of a product, which is below the bound because the word is
below `2 ^ width`; looking for an accepted word adds nothing to that (`drawAccepted_lt`, by
induction on how often it looks).

Every number below the bound can be drawn. The least word that is scaled to the number leaves a
low part below the bound, and the accepted zone is never smaller than the bound
(`exists_scaled?`); a stream with that word in front gives the number at the first look.

## Results

* `below32_lt`, `below64_lt` — a draw is below its bound.
* `exists_below32`, `exists_below64` — every number below the bound is drawn from some words.
-/

namespace AffineSwarm.WordStream

variable {σ : Type} {range n : Nat}

-- ---------------------------------------------------------------------------
-- Words
-- ---------------------------------------------------------------------------

/-- Any sequence of words is a stream of them. -/
instance : WordStream (Stream' UInt32) := ⟨fun s => (s.head, s.tail)⟩

theorem word_cons (w : UInt32) (s : Stream' UInt32) : word (Stream'.cons w s) = (w, s) := rfl

-- ---------------------------------------------------------------------------
-- Scaling
-- ---------------------------------------------------------------------------

/-- The high part of a scaled word is below the range. -/
theorem scaled?_lt {width zone v : Nat} (hrange : 0 < range) (hv : v < 1 <<< width)
    (h : scaled? width range zone v = some n) : n < range := by
  unfold scaled? at h
  split at h
  · have hn : (v * range) >>> width = n := by simpa using h
    rw [Nat.shiftLeft_eq, Nat.one_mul] at hv
    have hproduct := Nat.mul_lt_mul_of_pos_right hv hrange
    rw [← hn, Nat.shiftRight_eq_div_pow]
    exact Nat.div_lt_of_lt_mul hproduct
  · simp at h

/-- Every number below the range is the high part of some word scaled, with a low part in the
zone. -/
theorem exists_scaled? {width zone : Nat} (hn : n < range) (hrange : range ≤ 1 <<< width)
    (hzone : range ≤ zone + 1) : ∃ v < 1 <<< width, scaled? width range zone v = some n := by
  -- the least word that is scaled so high: a quotient rounded up
  have hdiv := Nat.div_add_mod (n * 1 <<< width + (range - 1)) range
  have hmod : (n * 1 <<< width + (range - 1)) % range < range := Nat.mod_lt _ (by omega)
  generalize (n * 1 <<< width + (range - 1)) / range = v at hdiv
  generalize (n * 1 <<< width + (range - 1)) % range = m at hdiv hmod
  have hproduct : v * range = 1 <<< width * n + (range - 1 - m) := by
    rw [Nat.mul_comm v, Nat.mul_comm _ n]
    omega
  have hlow : v * range % 1 <<< width = range - 1 - m := by
    rw [hproduct, Nat.mul_add_mod, Nat.mod_eq_of_lt (by omega)]
  have hhigh : v * range / 1 <<< width = n := by
    rw [hproduct, Nat.mul_add_div (by omega), Nat.div_eq_of_lt (by omega), Nat.add_zero]
  refine ⟨v, ?_, ?_⟩
  · have hshare : (n + 1) * 1 <<< width ≤ range * 1 <<< width := Nat.mul_le_mul_right _ hn
    rw [Nat.succ_mul, Nat.mul_comm n] at hshare
    refine Nat.lt_of_mul_lt_mul_left (a := range) ?_
    rw [Nat.mul_comm, hproduct]
    omega
  · rw [scaled?, hlow, Nat.shiftRight_eq_div_pow, ← Nat.one_shiftLeft, hhigh,
      if_pos (by omega)]

-- ---------------------------------------------------------------------------
-- Looking
-- ---------------------------------------------------------------------------

/-- What is drawn is a value that was accepted, or zero. -/
theorem drawAccepted_lt {next : σ → Option Nat × σ}
    (hnext : ∀ s n, (next s).1 = some n → n < range) (hrange : 0 < range) (fuel : Nat) (s : σ) :
    (drawAccepted next fuel s).1 < range := by
  induction fuel generalizing s with
  | zero => exact hrange
  | succ fuel ih =>
    rw [drawAccepted]
    split
    · rename_i n s' hdrawn
      exact hnext s n (by rw [hdrawn])
    · exact ih _

/-- An accepted value is drawn at the first look. -/
theorem drawAccepted_of_some {next : σ → Option Nat × σ} {s rest : σ}
    (h : next s = (some n, rest)) : drawAccepted next patience s = (n, rest) := by
  obtain ⟨looks, hlooks⟩ := Nat.exists_eq_succ_of_ne_zero (n := patience) (by decide)
  rw [hlooks, drawAccepted, h]

-- ---------------------------------------------------------------------------
-- Draws
-- ---------------------------------------------------------------------------

variable [WordStream σ]

theorem toNat_doubleWord (s : σ) :
    (doubleWord s).1.toNat = (word (word s).2).1.toNat * UInt32.size + (word s).1.toNat := by
  have hlow := (word s).1.toNat_lt
  have hhigh := (word (word s).2).1.toNat_lt
  have hfits : (word (word s).2).1.toNat <<< 32 < 1 <<< 64 := by
    rw [Nat.shiftLeft_eq, Nat.one_shiftLeft]
    omega
  rw [Nat.one_shiftLeft] at hfits
  simp only [doubleWord]
  rw [UInt64.toNat_or, UInt64.toNat_shiftLeft, UInt32.toNat_toUInt64, UInt32.toNat_toUInt64,
    show (32 : UInt64).toNat % 64 = 32 from rfl, Nat.mod_eq_of_lt hfits,
    ← Nat.shiftLeft_add_eq_or_of_lt hlow, Nat.shiftLeft_eq]

theorem below32_lt (hrange : 0 < range) (s : σ) : (below32 range s).1 < range := by
  refine drawAccepted_lt ?_ hrange patience s
  intro s n h
  exact scaled?_lt hrange (word s).1.toNat_lt h

theorem below64_lt (hrange : 0 < range) (s : σ) : (below64 range s).1 < range := by
  refine drawAccepted_lt ?_ hrange patience s
  intro s n h
  exact scaled?_lt hrange (doubleWord s).1.toNat_lt h

/-- Every number below the range is drawn, and the stream goes on as it likes. -/
theorem exists_below32 (hn : n < range) (hrange : range ≤ UInt32.size) (rest : Stream' UInt32) :
    ∃ words : Stream' UInt32, below32 range words = (n, rest) := by
  have hzone : range ≤ UInt32.size - 1 - (UInt32.size - range) % range + 1 := by
    have := Nat.mod_le (UInt32.size - range) range
    omega
  obtain ⟨v, hv, hscaled⟩ : ∃ v < 1 <<< 32, scaled? 32 range _ v = some n :=
    exists_scaled? hn hrange hzone
  refine ⟨.cons (UInt32.ofNat v) rest, ?_⟩
  rw [below32]
  refine drawAccepted_of_some ?_
  simp only [word_cons, UInt32.toNat_ofNat_of_lt' hv, hscaled]

/-- Any 64 bits are read from two words in front of any stream. -/
theorem exists_doubleWord {v : Nat} (hv : v < 1 <<< 64) (rest : Stream' UInt32) :
    ∃ (words : Stream' UInt32) (w : UInt64), doubleWord words = (w, rest) ∧ w.toNat = v := by
  have hlow : v % UInt32.size < UInt32.size := Nat.mod_lt v (Nat.two_pow_pos 32)
  have hhigh : v / UInt32.size < UInt32.size := by
    rw [Nat.one_shiftLeft] at hv
    rw [UInt32.size]
    omega
  let words := Stream'.cons (UInt32.ofNat (v % UInt32.size))
    (.cons (UInt32.ofNat (v / UInt32.size)) rest)
  refine ⟨words, (doubleWord words).1, rfl, ?_⟩
  rw [toNat_doubleWord, word_cons, word_cons, UInt32.toNat_ofNat_of_lt' hlow,
    UInt32.toNat_ofNat_of_lt' hhigh, Nat.div_add_mod']

theorem exists_below64 (hn : n < range) (hrange : range ≤ UInt64.size) (rest : Stream' UInt32) :
    ∃ words : Stream' UInt32, below64 range words = (n, rest) := by
  have hzone : range ≤ range <<< (63 - range.log2) - 1 + 1 := by
    have := Nat.le_mul_of_pos_right range (Nat.two_pow_pos (63 - range.log2))
    rw [Nat.shiftLeft_eq]
    omega
  obtain ⟨v, hv, hscaled⟩ : ∃ v < 1 <<< 64, scaled? 64 range _ v = some n :=
    exists_scaled? hn hrange hzone
  obtain ⟨words, w, hwords, hvalue⟩ := exists_doubleWord hv rest
  refine ⟨words, ?_⟩
  rw [below64]
  refine drawAccepted_of_some ?_
  simp only [hwords, hvalue, hscaled]

end AffineSwarm.WordStream
