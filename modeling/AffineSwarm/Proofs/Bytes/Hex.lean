import AffineSwarm.Bytes.Hex
import AffineSwarm.Text.Utf8

/-!
# What hexadecimal text spells

A text spells bytes if it has two digits for each of them, in either case, the first one for
the upper half of the byte (`Spells`). Reading accepts exactly the texts that spell something,
and gives the bytes that they spell (`decode_eq_ok_iff`). The reader works on the bytes of the
text and not on its characters; that makes no difference, because digits are ASCII characters
and every other character has a byte that is none (`Utf8.encodeChar_cases`).

Main results:

* `Utf8.bytes_eq` — the bytes of a text are its UTF-8 encoding.
* `denotes_iff` — the values of digits.
* `decode_eq_ok_iff` — what is read.
* `spells_encode` — what is written spells the bytes that were meant.
-/

namespace AffineSwarm

-- ---------------------------------------------------------------------------
-- The bytes of a text
-- ---------------------------------------------------------------------------

namespace Utf8

theorem bytes_eq (text : String) : bytes text = text.toUTF8.data.toList := by
  have hencoded : text.toList.utf8Encode = text.toByteArray := by
    rw [← String.toByteArray_ofList, String.ofList_toList]
  rw [String.toUTF8_eq_toByteArray, ← hencoded, List.utf8Encode, List.data_toByteArray]
  rfl

theorem encodeChar_of_ascii {c : Char} (h : c.toNat < 128) :
    String.utf8EncodeChar c = [UInt8.ofNat c.toNat] := by
  rw [String.utf8EncodeChar]
  exact if_pos (Nat.le_of_lt_succ h)

/-- Each of the longer forms starts with a byte that has its upper bit set. -/
theorem ascii_of_encodeChar {c : Char} (h : ∀ b ∈ String.utf8EncodeChar c, b.toNat < 128) :
    c.toNat < 128 := by
  rw [String.utf8EncodeChar] at h
  split at h
  · rename_i hascii
    exact Nat.lt_succ_of_le hascii
  · split at h
    · have hfirst := h _ List.mem_cons_self
      simp only [UInt8.toNat_ofNat'] at hfirst
      omega
    · split at h
      · have hfirst := h _ List.mem_cons_self
        simp only [UInt8.toNat_ofNat'] at hfirst
        omega
      · have hfirst := h _ List.mem_cons_self
        simp only [UInt8.toNat_ofNat'] at hfirst
        omega

theorem ascii_of_encode {cs : List Char} (h : ∀ b ∈ encode cs, b.toNat < 128) :
    ∀ c ∈ cs, c.toNat < 128 := by
  intro c hc
  exact ascii_of_encodeChar fun b hb => h b (List.mem_flatMap.mpr ⟨c, hc, hb⟩)

/-- The bytes of an ASCII text, each taken for a character, are the text. -/
theorem map_encode_of_ascii {cs : List Char} (h : ∀ c ∈ cs, c.toNat < 128) :
    (encode cs).map (fun b => Char.ofNat b.toNat) = cs := by
  induction cs with
  | nil => rfl
  | cons c rest ih =>
    obtain ⟨hc, hrest⟩ := List.forall_mem_cons.mp h
    have hbyte : (UInt8.ofNat c.toNat).toNat = c.toNat := by
      rw [UInt8.toNat_ofNat']
      omega
    have ih := ih hrest
    rw [encode] at ih ⊢
    rw [List.flatMap_cons, encodeChar_of_ascii hc, List.singleton_append, List.map_cons, ih, hbyte,
      Char.ofNat_toNat]

end Utf8

namespace Hex

-- ---------------------------------------------------------------------------
-- Digits
-- ---------------------------------------------------------------------------

def lowerDigits : List Char := "0123456789abcdef".toList

def upperDigits : List Char := "0123456789ABCDEF".toList

/-- `c` is the digit for `n`, in either case. -/
def Denotes (c : Char) (n : Nat) : Prop := lowerDigits[n]? = some c ∨ upperDigits[n]? = some c

instance (c : Char) (n : Nat) : Decidable (Denotes c n) := inferInstanceAs (Decidable (_ ∨ _))

theorem Denotes.bounds {c : Char} {n : Nat} (h : Denotes c n) : c.toNat < 128 ∧ n < 16 := by
  have hascii : ∀ c ∈ lowerDigits ++ upperDigits, decide (c.toNat < 128) = true :=
    List.all_eq_true.mp (by decide)
  rcases h with h | h
  · exact ⟨of_decide_eq_true (hascii c (List.mem_append_left _ (List.mem_of_getElem? h))),
      (List.getElem?_eq_some_iff.mp h).1⟩
  · exact ⟨of_decide_eq_true (hascii c (List.mem_append_right _ (List.mem_of_getElem? h))),
      (List.getElem?_eq_some_iff.mp h).1⟩

theorem value?_bounds {c : Char} {n : Nat} (h : value? c = some n) : c.toNat < 128 ∧ n < 16 := by
  have hle : ∀ c d : Char, c ≤ d ↔ c.toNat ≤ d.toNat := fun _ _ => UInt32.le_iff_toNat_le
  have hcodes : '0'.toNat = 48 ∧ '9'.toNat = 57 ∧ 'a'.toNat = 97 ∧ 'f'.toNat = 102 ∧
      'A'.toNat = 65 ∧ 'F'.toNat = 70 := by decide
  rw [value?] at h
  simp only [hle, hcodes] at h
  split at h
  · cases h
    omega
  · split at h
    · cases h
      omega
    · split at h
      · cases h
        omega
      · cases h

theorem denotes_iff {c : Char} {n : Nat} : Denotes c n ↔ value? c = some n := by
  constructor
  · intro h
    have htable : ∀ n < 16, lowerDigits[n]?.bind value? = some n ∧
        upperDigits[n]?.bind value? = some n := by decide
    obtain ⟨hlower, hupper⟩ := htable n h.bounds.2
    rcases h with h | h
    · rwa [h, Option.bind_some] at hlower
    · rwa [h, Option.bind_some] at hupper
  · intro h
    have htable : ∀ code < 128, ∀ n ∈ value? (Char.ofNat code), Denotes (Char.ofNat code) n := by
      decide +kernel
    have hdenotes := htable c.toNat (value?_bounds h).1
    rw [Char.ofNat_toNat] at hdenotes
    exact hdenotes n h

theorem denotes_digit {n : Nat} (h : n < 16) : Denotes (digit n) n := by
  have htable : ∀ n < 16, Denotes (digit n) n := by decide
  exact htable n h

/-- A digit in either case is one that the lower-case digit is the lower case of. -/
theorem denotes_of_toLower {c : Char} {n : Nat} (hn : n < 16) (h : c.toLower = digit n) :
    Denotes c n := by
  have htable : ∀ code < 128, value? (Char.ofNat code).toLower = value? (Char.ofNat code) := by
    decide +kernel
  have hascii : c.toNat < 128 := by
    unfold Char.toLower at h
    split at h
    · rename_i hupper
      exact Nat.lt_of_le_of_lt (UInt32.le_iff_toNat_le.mp hupper.2) (by decide)
    · exact h ▸ (denotes_digit hn).bounds.1
  have hvalue := htable c.toNat hascii
  rw [Char.ofNat_toNat, h, denotes_iff.mp (denotes_digit hn)] at hvalue
  exact denotes_iff.mpr hvalue.symm

-- ---------------------------------------------------------------------------
-- Spelling bytes
-- ---------------------------------------------------------------------------

/-- Digits spell bytes: two for each byte, the one for its upper half first. -/
inductive Spells : List Char → List UInt8 → Prop where
  | nil : Spells [] []
  | cons {high low : Char} {b : UInt8} {digits : List Char} {bytes : List UInt8} :
    Denotes high (b.toNat / 16) → Denotes low (b.toNat % 16) → Spells digits bytes →
      Spells (high :: low :: digits) (b :: bytes)

theorem Spells.denotes {digits : List Char} {bytes : List UInt8} (h : Spells digits bytes) :
    ∀ c ∈ digits, ∃ n, Denotes c n := by
  induction h with
  | nil => exact fun c hc => absurd hc List.not_mem_nil
  | cons high low rest ih =>
    rw [List.forall_mem_cons, List.forall_mem_cons]
    exact ⟨⟨_, high⟩, ⟨_, low⟩, ih⟩

theorem Spells.length_eq {digits : List Char} {bytes : List UInt8} (h : Spells digits bytes) :
    digits.length = 2 * bytes.length := by
  induction h with
  | nil => rfl
  | cons high low rest ih =>
    simp only [List.length_cons]
    omega

theorem spells_encode (bytes : List UInt8) : Spells (encode bytes) bytes := by
  induction bytes with
  | nil => exact .nil
  | cons b rest ih =>
    have hlt := b.toNat_lt
    exact .cons (denotes_digit (by omega)) (denotes_digit (by omega)) ih

/-- Capitals may be mixed into the digits that are written. -/
theorem spells_of_map_toLower {digits : List Char} {bytes : List UInt8}
    (h : digits.map Char.toLower = encode bytes) : Spells digits bytes := by
  induction bytes generalizing digits with
  | nil =>
    rw [encode, List.map_eq_nil_iff] at h
    exact h ▸ .nil
  | cons b rest ih =>
    have hlt := b.toNat_lt
    rw [encode] at h
    obtain ⟨high, digits, rfl, hhigh, h⟩ := List.map_eq_cons_iff.mp h
    obtain ⟨low, digits, rfl, hlow, h⟩ := List.map_eq_cons_iff.mp h
    exact .cons (denotes_of_toLower (by omega) hhigh) (denotes_of_toLower (by omega) hlow) (ih h)

-- ---------------------------------------------------------------------------
-- Reading
-- ---------------------------------------------------------------------------

/-- The byte that a digit pair of these values stands for, and its halves. -/
theorem toNat_ofNat_pair {h l : Nat} (hh : h < 16) (hl : l < 16) :
    (UInt8.ofNat (h * 16 + l)).toNat / 16 = h ∧ (UInt8.ofNat (h * 16 + l)).toNat % 16 = l := by
  rw [UInt8.toNat_ofNat']
  omega

theorem pair_of_halves (b : UInt8) : UInt8.ofNat (b.toNat / 16 * 16 + b.toNat % 16) = b := by
  rw [Nat.div_add_mod' b.toNat 16, UInt8.ofNat_toNat]

/-- The reader of bytes accepts what spells something if each byte is taken for a character. -/
theorem decodeFrom_eq_ok_iff (position : Nat) (text bytes : List UInt8) :
    decodeFrom position text = .ok bytes ↔
      Spells (text.map fun b => Char.ofNat b.toNat) bytes := by
  fun_induction decodeFrom position text generalizing bytes with
  | case1 position high low rest hhigh =>
    refine ⟨nofun, fun h => ?_⟩
    cases h with
    | cons hdigit =>
      rw [valueOfByte?, denotes_iff.mp hdigit] at hhigh
      cases hhigh
  | case2 position high low rest h hlow hhigh =>
    refine ⟨nofun, fun h => ?_⟩
    cases h with
    | cons _ hdigit =>
      rw [valueOfByte?, denotes_iff.mp hdigit] at hlow
      cases hlow
  | case3 position high low rest h l hlow hhigh ih =>
    rw [valueOfByte?, ← denotes_iff] at hhigh hlow
    obtain ⟨hh, hl⟩ := toNat_ofNat_pair hhigh.bounds.2 hlow.bounds.2
    constructor
    · intro hread
      cases hrest : decodeFrom (position + 2) rest with
      | error e =>
        rw [hrest] at hread
        cases hread
      | ok bytes' =>
        rw [hrest] at hread
        cases hread
        exact .cons (hh.symm ▸ hhigh) (hl.symm ▸ hlow) ((ih bytes').mp hrest)
    · intro hspells
      cases hspells with
      | @cons _ _ b _ bytes' hhigh' hlow' hrest =>
        rw [(ih bytes').mpr hrest]
        have hh' := Option.some.inj ((denotes_iff.mp hhigh).symm.trans (denotes_iff.mp hhigh'))
        have hl' := Option.some.inj ((denotes_iff.mp hlow).symm.trans (denotes_iff.mp hlow'))
        rw [hh', hl', pair_of_halves]
        rfl
  | case4 position b =>
    refine ⟨nofun, fun h => ?_⟩
    cases h
  | case5 position =>
    constructor
    · intro h
      cases h
      exact .nil
    · intro h
      cases h
      rfl

/-- **What is read.** A text is accepted exactly if it spells bytes, and as those. -/
theorem decode_eq_ok_iff {text : List Char} {bytes : List UInt8} :
    decode (Utf8.encode text) = .ok bytes ↔ Spells text bytes := by
  constructor
  · intro h
    rw [decode] at h
    split at h
    · cases h
    · have hspells := (decodeFrom_eq_ok_iff ..).mp h
      -- all bytes are digits, so the text is ASCII
      have hascii : ∀ b ∈ Utf8.encode text, b.toNat < 128 := by
        intro b hb
        obtain ⟨n, hdigit⟩ := hspells.denotes _ (List.mem_map_of_mem hb)
        have hvalid : b.toNat.isValidChar := .inl (Nat.lt_trans b.toNat_lt (by decide))
        have hcode : (Char.ofNat b.toNat).toNat = b.toNat := by
          rw [Char.ofNat, dif_pos hvalid]
          rfl
        exact hcode ▸ hdigit.bounds.1
      rwa [Utf8.map_encode_of_ascii (Utf8.ascii_of_encode hascii)] at hspells
  · intro hspells
    have hascii : ∀ c ∈ text, c.toNat < 128 := by
      intro c hc
      obtain ⟨n, hdigit⟩ := hspells.denotes c hc
      exact hdigit.bounds.1
    have htext := Utf8.map_encode_of_ascii hascii
    have hlength : (Utf8.encode text).length = 2 * bytes.length := by
      rw [← hspells.length_eq, ← congrArg List.length htext, List.length_map]
    rw [decode, if_neg (by omega), decodeFrom_eq_ok_iff, htext]
    exact hspells

end Hex

end AffineSwarm
