import AffineSwarm.Gene.Stored
import AffineSwarm.Proofs.Gene.Heredity
import AffineSwarm.Proofs.Gene.Slots

/-!
# Stored genes

A stored gene has more states than a gene: anything may stand in the slots after its digits, and
the comparison of stored genes looks at these slots too. But whatever makes or mutates a stored
gene gives the slots of a gene (`Agreement`), and then there are zeros in them (`Canonical`). So
the comparison tells genes apart by their digits alone.

No operation breaks off on the way. Digits are written into slots that are there, as a gene has
no more than 32 of them; a mutation draws its position below the number of digits, and moves a
digit by at most nine, which fits into a byte (`exists_sum?`).

## Results

* `agreement` — stored genes are made, mutated and compared as genes are.
* `stored_genes_are_canonical` — what holds of stored genes after any number of mutations, and
  which mutations there are.
-/

namespace AffineSwarm.Gene.Stored

-- ---------------------------------------------------------------------------
-- Statements
-- ---------------------------------------------------------------------------

/-- The genes that are made from digit values, a text or random digits, and those that come from
them by mutation. -/
inductive Made : Stored → Prop where
  | ofValues {values : List UInt8} {p : Stored} (made : ofValues? values = some (.ok p)) : Made p
  | ofText {text : String} {p : Stored} (made : ofText? text = some (.ok p)) : Made p
  | random {σ : Type} [WordStream σ] {n : Nat} {s rest : σ} {p : Stored}
    (made : random? n s = some (p, rest)) : Made p
  | mutate {σ : Type} [WordStream σ] {s rest : σ} {p q : Stored} {position : Option Nat}
    (parent : Made p) (mutated : p.mutate? s = some (position, q, rest)) : Made q

/-- There are digits in the slots that hold digits, and zeros in the others. -/
structure Canonical (p : Stored) : Prop where
  count_le : p.count ≤ 32
  digit_le : ∀ d ∈ p.digits, d ≤ 9
  eq_zero : ∀ slot ∈ p.padding, slot = 0

/-- One gene is the other but for one digit, which is `d` instead. -/
structure Replaces (p : Stored) (position : Nat) (d : UInt8) (q : Stored) : Prop where
  lt_count : position < p.count.toNat
  digit_le : d ≤ 9
  digit_ne : p.digits[position]? ≠ some d
  count_eq : q.count = p.count
  slots_eq : q.slots.toList = p.slots.toList.set position d

/-- Stored genes are made, mutated and compared as genes are, and nothing breaks off. -/
structure Agreement : Prop where
  ofValues : ∀ values,
    ofValues? values = some ((Gene.ofValues? (values.map UInt8.toNat)).map stored)
  ofText : ∀ text, ofText? text = some ((Gene.ofText? text).map stored)
  random : ∀ {σ : Type} [WordStream σ] (n : Nat) (s : σ),
    random? n s = some ((Gene.random n s).1.stored, (Gene.random n s).2)
  mutate : ∀ {σ : Type} [WordStream σ] (g : Gene) (s : σ), g.stored.mutate? s =
    some ((g.mutate s).1.position, (g.mutate s).1.gene.stored, (g.mutate s).2)
  same : ∀ g h : Gene, g.stored.same h.stored = decide (g = h)

-- ---------------------------------------------------------------------------
-- Genes in their slots
-- ---------------------------------------------------------------------------

theorem toList_slots_stored (g : Gene) : g.stored.slots.toList = g.padded := rfl

theorem toNat_count_stored (g : Gene) : g.stored.count.toNat = g.length := by
  have := g.length_le
  rw [stored, UInt8.toNat_ofNat']
  simp only [maxGeneLength, length] at *
  omega

theorem digits_stored (g : Gene) :
    g.stored.digits = g.digits.map fun d => UInt8.ofNat d.val := by
  rw [Stored.digits, toNat_count_stored, toList_slots_stored, take_padded]

theorem getElem?_digits_stored {g : Gene} {position : Nat} (h : position < g.digits.length) :
    g.stored.digits[position]? = some (UInt8.ofNat g.digits[position].val) := by
  rw [digits_stored, List.getElem?_map, List.getElem?_eq_getElem h, Option.map_some]

theorem canonical_stored (g : Gene) : g.stored.Canonical where
  count_le := by
    rw [UInt8.le_iff_toNat_le, toNat_count_stored]
    exact g.length_le
  digit_le := by
    rw [Stored.digits, toNat_count_stored, toList_slots_stored]
    exact g.le_of_mem_take_padded
  eq_zero := by
    rw [padding, toNat_count_stored, toList_slots_stored]
    exact g.eq_zero_of_mem_drop_padded

theorem eq_stored {p : Stored} {g : Gene} (hslots : p.slots.toList = g.padded)
    (hcount : p.count = UInt8.ofNat g.length) : p = g.stored := by
  ext1
  · exact Vector.toList_inj.mp hslots
  · exact hcount

/-- Different digits are stored as different bytes. -/
theorem ofNat_digit_inj (d e : Fin 10) (h : UInt8.ofNat d.val = UInt8.ofNat e.val) : d = e := by
  have hvalue := congrArg UInt8.toNat h
  rw [toNat_ofNat_digit, toNat_ofNat_digit] at hvalue
  exact Fin.ext hvalue

theorem digits_stored_inj {g h : Gene} : g.stored.digits = h.stored.digits ↔ g = h := by
  rw [digits_stored, digits_stored, List.map_inj_right ofNat_digit_inj, Gene.ext_iff]

theorem same_iff {p q : Stored} : p.same q = true ↔ p = q := by
  rw [same, Bool.and_eq_true, beq_iff_eq, beq_iff_eq, Stored.ext_iff]

-- ---------------------------------------------------------------------------
-- Writing
-- ---------------------------------------------------------------------------

theorem put?_of_lt {position : Nat} (h : position < maxGeneLength) (p : Stored) (value : UInt8) :
    ∃ q, p.put? position value = some q ∧ q.count = p.count ∧
      q.slots.toList = p.slots.toList.set position value :=
  ⟨_, dif_pos h, rfl, Vector.toList_set h⟩

/-- Values that find room replace as many slots, in their order. -/
theorem putAll?_of_le {values : List UInt8} {position : Nat}
    (h : position + values.length ≤ maxGeneLength) (p : Stored) :
    ∃ q, putAll? values position p = some q ∧ q.count = p.count ∧
      q.slots.toList = p.slots.toList.take position ++ values ++
        p.slots.toList.drop (position + values.length) := by
  induction values generalizing position p with
  | nil => exact ⟨p, rfl, rfl, by simp⟩
  | cons value rest ih =>
    rw [List.length_cons] at h
    obtain ⟨q, hput, hcount, hslots⟩ := put?_of_lt (by omega : position < maxGeneLength) p value
    obtain ⟨r, hrest, hcount', hslots'⟩ := ih (by omega : position + 1 + rest.length ≤ _) q
    refine ⟨r, ?_, hcount'.trans hcount, ?_⟩
    · rw [putAll?, hput]
      exact hrest
    · -- the first value is the last slot that the rest leaves alone
      have hposition : position < (p.slots.toList.set position value).length := by
        rw [List.length_set, Vector.length_toList]
        omega
      rw [hslots', hslots, List.take_succ_eq_append_getElem hposition,
        List.take_set_of_le (Nat.le_refl _), List.getElem_set_self,
        List.drop_set_of_lt (by omega), List.append_assoc _ [value], List.singleton_append,
        List.length_cons, Nat.add_right_comm, Nat.add_assoc]

/-- The digits of a gene, written into blank slots. -/
theorem putAll?_blank (g : Gene) :
    putAll? (g.digits.map fun d => UInt8.ofNat d.val) 0 (blank g.length) = some g.stored := by
  have hroom : 0 + (g.digits.map fun d => UInt8.ofNat d.val).length ≤ maxGeneLength := by
    rw [List.length_map, Nat.zero_add]
    exact g.length_le
  obtain ⟨q, hput, hcount, hslots⟩ := putAll?_of_le hroom (blank g.length)
  have hpadded : q.slots.toList = g.padded := by
    rw [hslots, padded, blank, Vector.toList_replicate, List.drop_replicate, List.length_map,
      Nat.zero_add]
    rfl
  rw [hput, eq_stored hpadded hcount]

-- ---------------------------------------------------------------------------
-- Values and texts
-- ---------------------------------------------------------------------------

/-- A value is a digit unless it is above nine. -/
theorem nine_lt_iff {value : UInt8} : decide (9 < value) = true ↔ ¬ value.toNat < 10 := by
  rw [decide_eq_true_iff, UInt8.lt_iff_toNat_lt, Nat.not_lt]
  rfl

/-- Values none of which is above nine are digits. -/
theorem exists_digits {values : List UInt8} (h : values.find? (9 < ·) = none) :
    ∃ digits : List (Fin 10), values = digits.map fun d => UInt8.ofNat d.val := by
  rw [List.find?_eq_none] at h
  induction values with
  | nil => exact ⟨[], rfl⟩
  | cons value rest ih =>
    obtain ⟨hvalue, hrest⟩ := List.forall_mem_cons.mp h
    obtain ⟨digits, rfl⟩ := ih hrest
    have hlt : value.toNat < 10 := Decidable.not_not.mp (mt nine_lt_iff.mpr hvalue)
    exact ⟨⟨value.toNat, hlt⟩ :: digits, by rw [List.map_cons, UInt8.ofNat_toNat]⟩

/-- The first value above nine is the one that reading reports. -/
theorem digitsOfValues_of_bad {values : List UInt8} {bad : UInt8}
    (h : values.find? (9 < ·) = some bad) :
    digitsOfValues (values.map UInt8.toNat) = .error (.badDigit bad.toNat) := by
  induction values with
  | nil => cases h
  | cons value rest ih =>
    rw [List.map_cons, digitsOfValues]
    rw [List.find?_cons] at h
    split at h
    · next hvalue =>
      cases h
      exact dif_neg (nine_lt_iff.mp hvalue)
    · next hvalue =>
      have hlt : value.toNat < 10 :=
        Decidable.not_not.mp (mt nine_lt_iff.mpr (Bool.eq_false_iff.mp hvalue))
      rw [dif_pos hlt, ih h]
      rfl

/-- Digits pass the check of digit values. -/
theorem ofValues?_map_digit (digits : List (Fin 10)) :
    Gene.ofValues? ((digits.map fun d => UInt8.ofNat d.val).map UInt8.toNat) =
      ofDigits? digits := by
  have hvalues : (digits.map fun d => UInt8.ofNat d.val).map UInt8.toNat = digits.map Fin.val := by
    rw [List.map_map]
    exact List.map_congr_left fun d _ => toNat_ofNat_digit d
  rw [hvalues, Gene.ofValues?, List.length_map, digitsOfValues_map_val]
  by_cases hlength : digits.length ≤ maxGeneLength
  · exact if_pos hlength
  · rw [if_neg hlength, ofDigits?, dif_neg hlength]

/-- Storing digit values gives the gene of these values, or the same error. -/
theorem ofValues?_eq (values : List UInt8) :
    ofValues? values = some ((Gene.ofValues? (values.map UInt8.toNat)).map stored) := by
  by_cases hlength : values.length ≤ maxGeneLength
  · cases hfind : values.find? (9 < ·) with
    | some bad =>
      rw [ofValues?, if_neg (Nat.not_lt.mpr hlength), hfind, Gene.ofValues?, List.length_map,
        if_pos hlength, digitsOfValues_of_bad hfind]
      rfl
    | none =>
      obtain ⟨digits, rfl⟩ := exists_digits hfind
      have hread := ofValues?_map_digit digits
      rw [List.length_map] at hlength
      rw [ofDigits?, dif_pos hlength] at hread
      rw [ofValues?, List.length_map, if_neg (Nat.not_lt.mpr hlength), hfind, hread]
      exact congrArg (Option.map Except.ok) (putAll?_blank ⟨digits, hlength⟩)
  · rw [ofValues?, if_pos (Nat.lt_of_not_le hlength), Gene.ofValues?, List.length_map,
      if_neg hlength]
    rfl

/-- Storing a text gives the gene of that text, or the same error. -/
theorem ofText?_eq (text : String) : ofText? text = some ((Gene.ofText? text).map stored) := by
  rw [ofText?, Gene.ofText?, ofChars?]
  cases digitsOfChars text.toList with
  | error e => rfl
  | ok digits =>
    change ofValues? _ = some ((ofDigits? digits).map stored)
    rw [ofValues?_eq, ofValues?_map_digit]

-- ---------------------------------------------------------------------------
-- Random digits
-- ---------------------------------------------------------------------------

section Random

variable {σ : Type} [WordStream σ]

/-- Drawing into slots writes the digits that are drawn for a gene. -/
theorem drawAll?_eq (n position : Nat) (p : Stored) (s : σ) :
    drawAll? n position p s =
      (putAll? ((drawDigits n s).1.map fun d => UInt8.ofNat d.val) position p).map
        fun q => (q, (drawDigits n s).2) := by
  induction n generalizing position p s with
  | zero => rfl
  | succ n ih =>
    have hdigit : (WordStream.below32 10 s).1 < 10 := WordStream.below32_lt (by omega) s
    rw [drawAll?, drawDigits]
    -- a digit is reduced below ten, which changes nothing as it was drawn there
    generalize WordStream.below32 10 s = drawn at hdigit ⊢
    obtain ⟨d, s⟩ := drawn
    simp only at hdigit ⊢
    have hbyte : (Fin.ofNat 10 d).val = d := Nat.mod_eq_of_lt hdigit
    rw [List.map_cons, putAll?, hbyte]
    cases p.put? position (UInt8.ofNat d) with
    | none => rfl
    | some q => exact ih (position + 1) q s

/-- Storing random digits gives the gene that is drawn. -/
theorem random?_eq (n : Nat) (s : σ) :
    random? n s = some ((Gene.random n s).1.stored, (Gene.random n s).2) := by
  have hlength : (Gene.random n s).1.length = min n maxGeneLength := length_drawDigits ..
  have hput := putAll?_blank (Gene.random n s).1
  rw [hlength] at hput
  rw [random?, drawAll?_eq]
  exact congrArg (Option.map _) hput

end Random

-- ---------------------------------------------------------------------------
-- Mutations
-- ---------------------------------------------------------------------------

section Mutations

variable {g : Gene} {position : Nat}

/-- Moving a digit changes one slot. -/
theorem padded_shiftDigit (h : position < g.digits.length) (shift : Fin 10) :
    (g.shiftDigit position shift).padded =
      g.padded.set position (UInt8.ofNat (g.digits[position] + shift).val) := by
  have hdigits : (g.shiftDigit position shift).digits =
      g.digits.set position (g.digits[position] + shift) := by
    change g.digits.modify position (· + shift) = _
    rw [List.modify_eq_set, List.getElem?_eq_getElem h, Option.getD_some]
  rw [padded, padded, length_shiftDigit, hdigits, List.map_set,
    List.set_append_left _ _ (by rwa [List.length_map])]

theorem getElem?_slots_stored (h : position < g.digits.length) :
    g.stored.slots[position]? = some (UInt8.ofNat g.digits[position].val) := by
  rw [← Vector.getElem?_toList, toList_slots_stored, padded,
    List.getElem?_append_left (by rwa [List.length_map]), List.getElem?_map,
    List.getElem?_eq_getElem h, Option.map_some]

/-- A digit moved by less than ten places fits into a byte, and then falls back on the circle. -/
theorem exists_sum? (d : Fin 10) {shift : Nat} (h : shift < 10) :
    ∃ moved, sum? (UInt8.ofNat d.val) (UInt8.ofNat shift) = some moved ∧
      moved % 10 = UInt8.ofNat (d + Fin.ofNat 10 shift).val := by
  have hd := d.isLt
  have hshift : (UInt8.ofNat shift).toNat = shift :=
    UInt8.toNat_ofNat_of_lt' (Nat.lt_trans h (by decide))
  refine ⟨_, if_pos ?_, ?_⟩
  · rw [toNat_ofNat_digit, hshift, UInt8.size]
    omega
  · apply UInt8.toNat_inj.mp
    rw [UInt8.toNat_mod, UInt8.toNat_add, toNat_ofNat_digit, hshift, toNat_ofNat_digit,
      Fin.val_add, Fin.val_ofNat, show (10 : UInt8).toNat = 10 from rfl]
    omega

theorem move?_stored (h : position < g.digits.length) {shift : Nat} (hshift : shift < 10) :
    g.stored.move? position (UInt8.ofNat shift) =
      some (g.shiftDigit position (Fin.ofNat 10 shift)).stored := by
  obtain ⟨moved, hsum, hmoved⟩ := exists_sum? g.digits[position] hshift
  obtain ⟨q, hput, hcount, hslots⟩ :=
    put?_of_lt (Nat.lt_of_lt_of_le h g.length_le) g.stored (moved % 10)
  have hpadded : q.slots.toList = (g.shiftDigit position (Fin.ofNat 10 shift)).padded := by
    rw [hslots, hmoved, toList_slots_stored, padded_shiftDigit h]
  have hlength : q.count = UInt8.ofNat (g.shiftDigit position (Fin.ofNat 10 shift)).length := by
    rw [hcount, length_shiftDigit]
    rfl
  rw [move?, getElem?_slots_stored h]
  simp only [Option.bind_eq_bind, Option.bind_some, hsum, hput, eq_stored hpadded hlength]

variable {σ : Type} [WordStream σ]

theorem count_stored_eq_zero_iff : g.stored.count = 0 ↔ g.isEmpty = true := by
  rw [← UInt8.toNat_inj, toNat_count_stored, isEmpty, List.isEmpty_iff_length_eq_zero]
  rfl

/-- A stored gene is mutated as the gene is: at the same position, into the slots of the same
mutant, and with the same words drawn. -/
theorem mutate?_stored (g : Gene) (s : σ) :
    g.stored.mutate? s =
      some ((g.mutate s).1.position, (g.mutate s).1.gene.stored, (g.mutate s).2) := by
  by_cases hempty : g.isEmpty = true
  · rw [mutate_of_isEmpty hempty, mutate?, if_pos (count_stored_eq_zero_iff.mpr hempty)]
  · rw [mutate?, if_neg (mt count_stored_eq_zero_iff.mp hempty), toNat_count_stored, mutate,
      if_neg hempty]
    obtain ⟨position, middle, shift, rest, hfirst, hsecond, hposition, hshift⟩ :=
      exists_draws (Bool.eq_false_iff.mpr hempty) s
    rw [hfirst]
    simp only [hsecond, move?_stored hposition (by omega : shift + 1 < 10), Option.map_some]

end Mutations

-- ---------------------------------------------------------------------------
-- Which mutations there are
-- ---------------------------------------------------------------------------

theorem replaces_shiftDigit {g : Gene} {position shift : Nat} (h : position < g.digits.length)
    (hpos : 0 < shift) (hlt : shift < 10) :
    g.stored.Replaces position (UInt8.ofNat (g.digits[position] + Fin.ofNat 10 shift).val)
      (g.shiftDigit position (Fin.ofNat 10 shift)).stored where
  lt_count := by rwa [toNat_count_stored]
  digit_le := by
    rw [UInt8.le_iff_toNat_le, toNat_ofNat_digit]
    exact Nat.le_of_lt_succ (Fin.isLt _)
  digit_ne := by
    rw [getElem?_digits_stored h]
    intro hdigit
    exact add_shift_ne _ hpos hlt (ofNat_digit_inj _ _ (Option.some.inj hdigit)).symm
  count_eq := by rw [stored, stored, length_shiftDigit]
  slots_eq := by rw [toList_slots_stored, toList_slots_stored, padded_shiftDigit h]

/-- A mutation of a gene with digits replaces one of them. -/
theorem exists_mutate?_stored {σ : Type} [WordStream σ] {g : Gene} (h : g.isEmpty = false)
    (s : σ) : ∃ position d q rest,
      g.stored.mutate? s = some (some position, q, rest) ∧ g.stored.Replaces position d q := by
  obtain ⟨position, shift, rest, hposition, hpos, hlt, hmutate⟩ := exists_shift_mutate h s
  refine ⟨position, _, _, rest, ?_, replaces_shiftDigit hposition hpos hlt⟩
  rw [mutate?_stored, hmutate]

/-- Each digit may be replaced by each other one. -/
theorem exists_words_mutate?_stored {g : Gene} {position : Nat} {d : UInt8}
    (hposition : position < g.digits.length) (hd : d ≤ 9)
    (hne : g.stored.digits[position]? ≠ some d) :
    ∃ q, g.stored.Replaces position d q ∧
      ∃ words rest : Stream' UInt32, g.stored.mutate? words = some (some position, q, rest) := by
  have hlt : d.toNat < 10 := Nat.lt_succ_of_le (UInt8.le_iff_toNat_le.mp hd)
  have hbyte : UInt8.ofNat (⟨d.toNat, hlt⟩ : Fin 10).val = d := UInt8.ofNat_toNat
  have hother : g.digits[position] ≠ ⟨d.toNat, hlt⟩ := by
    intro hsame
    exact hne (by rw [getElem?_digits_stored hposition, hsame, hbyte])
  obtain ⟨shift, hshift, hsum⟩ := exists_shift_of_ne hother
  have hpos : 0 < shift.val := Nat.pos_of_ne_zero fun hzero => hshift (Fin.ext hzero)
  obtain ⟨words, hmutate⟩ := exists_words_mutate hposition hshift (.const 0)
  have hreplaces := replaces_shiftDigit hposition hpos shift.isLt
  rw [Fin.ofNat_val_eq_self, hsum, hbyte] at hreplaces
  refine ⟨_, hreplaces, words, .const 0, ?_⟩
  rw [mutate?_stored, hmutate]

-- ---------------------------------------------------------------------------
-- The whole
-- ---------------------------------------------------------------------------

theorem same_stored (g h : Gene) : g.stored.same h.stored = decide (g = h) := by
  rw [Bool.eq_iff_iff, same_iff, decide_eq_true_iff]
  exact ⟨fun hsame => digits_stored_inj.mp (congrArg digits hsame), congrArg stored⟩

theorem agreement : Agreement where
  ofValues := ofValues?_eq
  ofText := ofText?_eq
  random := random?_eq
  mutate := mutate?_stored
  same := same_stored

theorem exists_of_map_stored {read : Except Error Gene} {p : Stored}
    (h : some (read.map stored) = some (.ok p)) : ∃ g : Gene, p = g.stored := by
  cases read with
  | error e => cases h
  | ok g =>
    cases h
    exact ⟨g, rfl⟩

/-- Whatever is made is a gene in its slots; by induction on its mutations. -/
theorem Made.exists_gene {p : Stored} (made : p.Made) : ∃ g : Gene, p = g.stored := by
  induction made with
  | ofValues made =>
    rw [ofValues?_eq] at made
    exact exists_of_map_stored made
  | ofText made =>
    rw [ofText?_eq] at made
    exact exists_of_map_stored made
  | random made =>
    rw [random?_eq] at made
    cases made
    exact ⟨_, rfl⟩
  | mutate _ mutated ih =>
    obtain ⟨g, rfl⟩ := ih
    rw [mutate?_stored] at mutated
    cases mutated
    exact ⟨_, rfl⟩

/--
**Stored genes stay canonical**. Whatever made a stored gene, and however often it was mutated
since, its slots hold digits and then zeros. Two such genes are the same slot by slot exactly if
they have the same digits. The mutation of an empty gene leaves it as it is and draws nothing. The
mutation of any other gives the position of a digit, which is replaced by a different one, while
nothing else changes; and for each digit and each other value there are words that lead to
this change.
-/
theorem stored_genes_are_canonical (p : Stored) (made : p.Made) :
    Agreement ∧ p.Canonical ∧
    (∀ q : Stored, q.Made → (p.same q = true ↔ p.digits = q.digits)) ∧
    (p.count = 0 → ∀ {σ : Type} [WordStream σ] (s : σ), p.mutate? s = some (none, p, s)) ∧
    (p.count ≠ 0 → ∀ {σ : Type} [WordStream σ] (s : σ), ∃ position d q rest,
      p.mutate? s = some (some position, q, rest) ∧ p.Replaces position d q) ∧
    (∀ position d, position < p.count.toNat → d ≤ 9 → p.digits[position]? ≠ some d →
      ∃ q, p.Replaces position d q ∧
        ∃ words rest : Stream' UInt32, p.mutate? words = some (some position, q, rest)) := by
  obtain ⟨g, rfl⟩ := made.exists_gene
  refine ⟨agreement, canonical_stored g, ?_, ?_, ?_, ?_⟩
  · intro q hq
    obtain ⟨h, rfl⟩ := hq.exists_gene
    rw [same_stored, decide_eq_true_iff, digits_stored_inj]
  · intro hcount σ _ s
    exact if_pos hcount
  · intro hcount σ _ s
    exact exists_mutate?_stored
      (Bool.eq_false_iff.mpr (mt count_stored_eq_zero_iff.mpr hcount)) s
  · intro position d hposition hd hne
    rw [toNat_count_stored] at hposition
    exact exists_words_mutate?_stored hposition hd hne

/-- A gene of two digits and one with two zeros after them fill the same slots, but are not the
same; and the last zero of the longer one may turn into a nine. -/
theorem stored_genes_are_canonical_of_trailing_zeros :
    let p : Stored := (⟨[2, 1, 0, 0], by decide⟩ : Gene).stored
    let q : Stored := (⟨[2, 1], by decide⟩ : Gene).stored
    p.Made ∧ q.Made ∧ p.slots = q.slots ∧ p.same q = false ∧
    ∃ r, p.Replaces 3 9 r ∧
      ∃ words rest : Stream' UInt32, p.mutate? words = some (some 3, r, rest) := by
  intro p q
  have hp : p.Made := @Made.ofValues [2, 1, 0, 0] p (by rw [ofValues?_eq]; rfl)
  have hq : q.Made := @Made.ofValues [2, 1] q (by rw [ofValues?_eq]; rfl)
  obtain ⟨-, -, hsame, -, -, hreach⟩ := stored_genes_are_canonical p hp
  refine ⟨hp, hq, rfl, ?_, hreach 3 9 (by decide) (by decide) (by decide)⟩
  rw [Bool.eq_false_iff, Ne, hsame q hq]
  decide

end AffineSwarm.Gene.Stored
