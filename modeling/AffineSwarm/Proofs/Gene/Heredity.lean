import AffineSwarm.Gene.Heredity
import AffineSwarm.Proofs.Random.WordStream

/-!
# What a mutation changes

A mutation moves one digit round the circle of ten digits. The position is drawn below the
length of the gene, so there is a digit to move; and it moves by one to nine places, so it ends
somewhere else (`differsAt_shiftDigit`). The other digits stay, and so does their number. An
empty gene has nothing to change, and then nothing is drawn either (`mutate_of_isEmpty`).

Which digit moves and how far is left to the words that are drawn, and any position and any
distance is drawn from some words (`exists_words_mutate`).

## Results

* `differsAt_mutate` — a mutation changes the digit at the position that it reports.
* `isMutant_mutate` — the same for any gene, the empty one included.
-/

namespace AffineSwarm.Gene

-- ---------------------------------------------------------------------------
-- Genes that differ in one digit
-- ---------------------------------------------------------------------------

/-- Another gene has as many digits, and differs at one position and nowhere else. -/
structure DiffersAt (g other : Gene) (position : Nat) : Prop where
  length_eq : other.length = g.length
  lt_length : position < g.length
  digit_ne : other.digits[position]? ≠ g.digits[position]?
  digit_eq : ∀ i, i ≠ position → other.digits[i]? = g.digits[i]?

theorem DiffersAt.ne {g other : Gene} {position : Nat} (h : g.DiffersAt other position) :
    other ≠ g := by
  rintro rfl
  exact h.digit_ne rfl

/-- What a mutation may make of a gene: a gene with as many digits, of which one is different.
It is the same gene only if there is no digit. -/
structure IsMutant (g mutant : Gene) : Prop where
  length_eq : mutant.length = g.length
  eq_iff : mutant = g ↔ g.isEmpty = true
  differs : g.isEmpty = false → ∃ position, g.DiffersAt mutant position

-- ---------------------------------------------------------------------------
-- Moving a digit
-- ---------------------------------------------------------------------------

/-- A digit that moves less than once round the circle ends somewhere else. -/
theorem add_shift_ne (d : Fin 10) {shift : Nat} (hpos : 0 < shift) (hlt : shift < 10) :
    d + Fin.ofNat 10 shift ≠ d := by
  intro h
  have hval := congrArg Fin.val h
  simp only [Fin.val_add, Fin.val_ofNat] at hval
  omega

/-- Any other digit is reached by moving. -/
theorem exists_shift_of_ne {d e : Fin 10} (h : d ≠ e) :
    ∃ shift : Fin 10, shift ≠ 0 ∧ d + shift = e := by
  have hsum : d + (e - d) = e := by
    apply Fin.ext
    simp only [Fin.val_add, Fin.sub_def]
    omega
  refine ⟨e - d, fun hzero => h ?_, hsum⟩
  rwa [hzero, Fin.add_zero] at hsum

theorem length_shiftDigit (g : Gene) (position : Nat) (shift : Fin 10) :
    (g.shiftDigit position shift).length = g.length :=
  List.length_modify ..

theorem differsAt_shiftDigit {g : Gene} {position shift : Nat} (hposition : position < g.length)
    (hpos : 0 < shift) (hlt : shift < 10) :
    g.DiffersAt (g.shiftDigit position (Fin.ofNat 10 shift)) position where
  length_eq := g.length_shiftDigit ..
  lt_length := hposition
  digit_ne := by
    unfold length at hposition
    simp only [shiftDigit, List.getElem?_modify, if_true, List.getElem?_eq_getElem hposition]
    intro h
    exact add_shift_ne _ hpos hlt (Option.some.inj h)
  digit_eq i hi := by
    simp [shiftDigit, Ne.symm hi]

-- ---------------------------------------------------------------------------
-- Mutations
-- ---------------------------------------------------------------------------

variable {σ : Type} [WordStream σ]

/-- An empty gene stays as it is, and nothing is drawn. -/
theorem mutate_of_isEmpty {g : Gene} (h : g.isEmpty = true) (s : σ) :
    g.mutate s = (⟨none, g⟩, s) := by
  rw [mutate, if_pos h]

theorem length_pos_iff {g : Gene} : 0 < g.length ↔ g.isEmpty = false := by
  rw [length, List.length_pos_iff_exists_mem, isEmpty, List.isEmpty_eq_false_iff_exists_mem]

/-- A mutation draws a position, and then a number below nine. -/
theorem exists_draws {g : Gene} (h : g.isEmpty = false) (s : σ) :
    ∃ position middle shift rest, WordStream.below64 g.length s = (position, middle) ∧
      WordStream.below32 9 middle = (shift, rest) ∧ position < g.length ∧ shift < 9 :=
  ⟨_, _, _, _, rfl, rfl, WordStream.below64_lt (length_pos_iff.mpr h) s,
    WordStream.below32_lt (by omega) _⟩

/-- A mutation moves the digit at some position by one to nine places. -/
theorem exists_shift_mutate {g : Gene} (h : g.isEmpty = false) (s : σ) :
    ∃ position shift rest, position < g.length ∧ 0 < shift ∧ shift < 10 ∧
      g.mutate s = (⟨some position, g.shiftDigit position (Fin.ofNat 10 shift)⟩, rest) := by
  obtain ⟨position, middle, shift, rest, hfirst, hsecond, hposition, hshift⟩ := exists_draws h s
  refine ⟨position, shift + 1, rest, hposition, Nat.succ_pos shift, by omega, ?_⟩
  rw [mutate, if_neg (by simp [h]), hfirst]
  simp only [hsecond]

/-- A mutation changes one digit, at the position that it reports. -/
theorem differsAt_mutate {g : Gene} (h : g.isEmpty = false) (s : σ) :
    ∃ position, (g.mutate s).1.position = some position ∧
      g.DiffersAt (g.mutate s).1.gene position := by
  obtain ⟨position, shift, rest, hposition, hpos, hlt, hmutate⟩ := exists_shift_mutate h s
  rw [hmutate]
  exact ⟨position, rfl, differsAt_shiftDigit hposition hpos hlt⟩

/-- Any digit is moved by any number of places, with the right words. -/
theorem exists_words_mutate {g : Gene} {position : Nat} (hposition : position < g.length)
    {shift : Fin 10} (hshift : shift ≠ 0) (rest : Stream' UInt32) :
    ∃ words : Stream' UInt32,
      g.mutate words = (⟨some position, g.shiftDigit position shift⟩, rest) := by
  have hempty : g.isEmpty = false := length_pos_iff.mp (Nat.zero_lt_of_lt hposition)
  have hlength : g.length ≤ UInt64.size := Nat.le_trans g.length_le (by decide)
  have hpos : shift.val ≠ 0 := fun h => hshift (Fin.ext h)
  have hdrawn : shift.val - 1 < 9 := by omega
  obtain ⟨later, hsecond⟩ := WordStream.exists_below32 hdrawn (by decide) rest
  obtain ⟨words, hfirst⟩ := WordStream.exists_below64 hposition hlength later
  refine ⟨words, ?_⟩
  rw [mutate, if_neg (by simp [hempty]), hfirst]
  simp only [hsecond, Nat.sub_add_cancel (Nat.pos_of_ne_zero hpos), Fin.ofNat_val_eq_self]

/-- A mutation makes a mutant. -/
theorem isMutant_mutate (g : Gene) (s : σ) : g.IsMutant (g.mutate s).1.gene := by
  cases hempty : g.isEmpty with
  | true =>
    rw [mutate_of_isEmpty hempty]
    exact ⟨rfl, by simp [hempty], by simp [hempty]⟩
  | false =>
    obtain ⟨position, -, hdiffers⟩ := differsAt_mutate hempty s
    exact ⟨hdiffers.length_eq, by simp [hempty, hdiffers.ne], fun _ => ⟨position, hdiffers⟩⟩

end AffineSwarm.Gene
