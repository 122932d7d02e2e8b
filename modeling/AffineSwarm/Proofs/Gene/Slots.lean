import AffineSwarm.Gene.Basic

/-!
# Genes and their slots

A gene is known from its length and its 32 slots: the slots read back as the gene
(`ofValues?_take_padded`), and slots that read as a gene and are zero past its length
are the slots of that gene (`eq_padded_of_ofValues?`). So no gene has two spellings.
-/

namespace AffineSwarm.Gene

-- ---------------------------------------------------------------------------
-- Digit values
-- ---------------------------------------------------------------------------

theorem digitsOfValues_map_val (digits : List (Fin 10)) :
    digitsOfValues (digits.map Fin.val) = .ok digits := by
  induction digits with
  | nil => rfl
  | cons d rest ih =>
    rw [List.map_cons, digitsOfValues, dif_pos d.isLt, ih]
    rfl

theorem map_val_of_digitsOfValues {values : List Nat} {digits : List (Fin 10)}
    (h : digitsOfValues values = .ok digits) : digits.map Fin.val = values := by
  induction values generalizing digits with
  | nil =>
    cases h
    rfl
  | cons n rest ih =>
    rw [digitsOfValues] at h
    split at h
    · cases hrest : digitsOfValues rest with
      | error e =>
        rw [hrest] at h
        cases h
      | ok ds =>
        rw [hrest] at h
        cases h
        rw [List.map_cons, ih hrest]
    · cases h

/-- Values make a gene exactly if they are the digits of that gene. -/
theorem ofValues?_eq_ok_iff {values : List Nat} {g : Gene} :
    ofValues? values = .ok g ↔ values = g.digits.map Fin.val := by
  constructor
  · intro h
    rw [ofValues?] at h
    split at h
    · cases hdigits : digitsOfValues values with
      | error e =>
        rw [hdigits] at h
        cases h
      | ok ds =>
        rw [hdigits] at h
        change ofDigits? ds = .ok g at h
        rw [ofDigits?] at h
        split at h
        · cases h
          exact (map_val_of_digitsOfValues hdigits).symm
        · cases h
    · cases h
  · rintro rfl
    rw [ofValues?, List.length_map, if_pos g.length_le, digitsOfValues_map_val]
    show ofDigits? g.digits = .ok g
    rw [ofDigits?, dif_pos g.length_le]

-- ---------------------------------------------------------------------------
-- Slots
-- ---------------------------------------------------------------------------

/-- The byte of a digit has the value of the digit. -/
@[simp] theorem toNat_ofNat_digit (d : Fin 10) : (UInt8.ofNat d.val).toNat = d.val := by
  have := d.isLt
  rw [UInt8.toNat_ofNat']
  omega

theorem take_padded (g : Gene) :
    g.padded.take g.length = g.digits.map fun d => UInt8.ofNat d.val :=
  List.take_left' (List.length_map _)

theorem drop_padded (g : Gene) :
    g.padded.drop g.length = List.replicate (maxGeneLength - g.length) 0 :=
  List.drop_left' (List.length_map _)

theorem le_of_mem_take_padded (g : Gene) : ∀ slot ∈ g.padded.take g.length, slot ≤ 9 := by
  rw [take_padded]
  intro slot hslot
  obtain ⟨d, -, rfl⟩ := List.mem_map.mp hslot
  rw [UInt8.le_iff_toNat_le, toNat_ofNat_digit]
  exact Nat.le_of_lt_succ d.isLt

theorem eq_zero_of_mem_drop_padded (g : Gene) : ∀ slot ∈ g.padded.drop g.length, slot = 0 := by
  rw [drop_padded]
  exact fun slot hslot => List.eq_of_mem_replicate hslot

theorem ofValues?_take_padded (g : Gene) :
    ofValues? ((g.padded.take g.length).map UInt8.toNat) = .ok g := by
  rw [ofValues?_eq_ok_iff, take_padded, List.map_map]
  exact List.map_congr_left fun d _ => toNat_ofNat_digit d

theorem any_drop_padded (g : Gene) : (g.padded.drop g.length).any (· != 0) = false := by
  rw [drop_padded, List.any_replicate]
  simp

/-- Bytes none of which differs from zero are zeros. -/
theorem eq_replicate_of_any_ne_zero {bytes : List UInt8} (h : bytes.any (· != 0) = false) :
    bytes = List.replicate bytes.length 0 := by
  rw [List.eq_replicate_iff]
  refine ⟨rfl, fun b hb => ?_⟩
  simpa using List.any_eq_false.mp h b hb

/-- Slots that spell a gene and are zero past its length are its slots. -/
theorem eq_padded_of_ofValues? {slots : List UInt8} {count : Nat} {g : Gene}
    (hlength : slots.length = maxGeneLength) (hcount : count ≤ maxGeneLength)
    (hgene : ofValues? ((slots.take count).map UInt8.toNat) = .ok g)
    (hzero : (slots.drop count).any (· != 0) = false) :
    g.length = count ∧ slots = g.padded := by
  rw [ofValues?_eq_ok_iff] at hgene
  have hlen : g.length = count := by
    have := congrArg List.length hgene
    simp only [List.length_map, List.length_take, hlength] at this
    rw [length]
    omega
  have htake : slots.take count = g.digits.map fun d => UInt8.ofNat d.val := by
    have := congrArg (List.map UInt8.ofNat) hgene
    simpa [List.map_map, Function.comp_def] using this
  have hdrop : slots.drop count = List.replicate (maxGeneLength - g.length) 0 := by
    rw [eq_replicate_of_any_ne_zero hzero, List.length_drop, hlength, hlen]
  refine ⟨hlen, ?_⟩
  rw [padded, ← htake, ← hdrop, List.take_append_drop]

end AffineSwarm.Gene
