import AffineSwarm.Json.Quoted
import AffineSwarm.Proofs.Bytes.Hex

/-!
# Quoted text reads back

Each character is written between quotes as itself or as an escape, and either is cut off again
by the scanner as one unit that resolves to the character (`exists_unit`). The closing quote is
therefore the first quote that the scanner takes as such, and any text is read back from its
quoted form, whatever comes after it (`scan_encode`, by induction on the text). No character is
excepted: quotes, backslashes and control characters among them.
-/

namespace AffineSwarm.Json.Quoted

-- ---------------------------------------------------------------------------
-- Characters
-- ---------------------------------------------------------------------------

/-- The unit is what the scanner makes of a character, and it resolves to the character. -/
structure Carries (u : Unit) (c : Char) : Prop where
  scan_eq : ∀ rest, scan (encodeChar c ++ rest) = consUnit u (scan rest)
  resolve_eq : ∀ us, resolve (u :: us) = (resolve us).map (c :: ·)

theorem carries_short {c e : Char} (henc : encodeChar c = ['\\', e]) (hu : e ≠ 'u')
    (hshort : shortEscape? e = some c) : Carries (.char c) c where
  scan_eq rest := by
    rw [henc, List.cons_append, List.cons_append, List.nil_append, scan, hshort]
    intro _ _ _ _ _ h
    exact absurd h hu
  resolve_eq _ := rfl

/-- A control character without a short form is written by its number. -/
theorem carries_code {c : Char} (hcontrol : c.toNat < 0x20)
    (henc : encodeChar c =
      ['\\', 'u', '0', '0', Hex.digit (c.toNat / 16), Hex.digit (c.toNat % 16)]) :
    Carries (.code c.toNat) c where
  scan_eq rest := by
    have hhigh := Hex.denotes_iff.mp (Hex.denotes_digit (n := c.toNat / 16) (by omega))
    have hlow := Hex.denotes_iff.mp (Hex.denotes_digit (n := c.toNat % 16) (by omega))
    have hzero : Hex.value? '0' = some 0 := rfl
    have hcode : code? '0' '0' (Hex.digit (c.toNat / 16)) (Hex.digit (c.toNat % 16)) =
        some c.toNat := by
      rw [code?, hzero, hhigh, hlow]
      exact congrArg some (by omega)
    rw [henc]
    simp only [List.cons_append, List.nil_append]
    rw [scan, hcode]
  resolve_eq us := by
    -- the number is too small for either half of a surrogate pair
    have hleading : isLeading c.toNat = false := by
      rw [isLeading, Bool.and_eq_false_iff, decide_eq_false_iff_not]
      exact .inl (by omega)
    have htrailing : isTrailing c.toNat = false := by
      rw [isTrailing, Bool.and_eq_false_iff, decide_eq_false_iff_not]
      exact .inl (by omega)
    rw [resolve.eq_def]
    simp only [hleading, htrailing, Char.ofNat_toNat, Bool.false_eq_true, if_false]

theorem carries_self {c : Char} (hquote : c ≠ '"') (hbackslash : c ≠ '\\')
    (hprint : 0x20 ≤ c.toNat) (henc : encodeChar c = [c]) : Carries (.char c) c where
  scan_eq rest := by
    rw [henc, List.cons_append, List.nil_append, scan]
    · rw [decide_eq_false (by omega), decide_eq_false hbackslash]
      rfl
    · exact hquote
    · intro _ _ _ _ _ h
      exact absurd h hbackslash
    · intro _ _ h
      exact absurd h hbackslash
  resolve_eq _ := rfl

/-- Whatever a character is, it is carried by some unit. -/
theorem exists_unit (c : Char) : ∃ u, Carries u c := by
  have henc := encodeChar.eq_def c
  -- the seven characters that have a short form, then all others
  split at henc
  · exact ⟨_, carries_short henc (by decide) rfl⟩
  · exact ⟨_, carries_short henc (by decide) rfl⟩
  · exact ⟨_, carries_short henc (by decide) rfl⟩
  · exact ⟨_, carries_short henc (by decide) rfl⟩
  · exact ⟨_, carries_short henc (by decide) rfl⟩
  · exact ⟨_, carries_short henc (by decide) rfl⟩
  · exact ⟨_, carries_short henc (by decide) rfl⟩
  · next hquote hbackslash _ _ _ _ _ =>
    split at henc
    · next hcontrol => exact ⟨_, carries_code hcontrol henc⟩
    · next hprint => exact ⟨_, carries_self hquote hbackslash (Nat.le_of_not_lt hprint) henc⟩

-- ---------------------------------------------------------------------------
-- Texts
-- ---------------------------------------------------------------------------

/-- Any text is read back from its quoted form, up to the closing quote and no further. -/
theorem scan_encode (cs rest : List Char) :
    ∃ us, scan (encode cs ++ '"' :: rest) = some (us, rest) ∧ resolve us = some cs := by
  induction cs with
  | nil => exact ⟨[], rfl, rfl⟩
  | cons c cs ih =>
    obtain ⟨us, hscan, hresolve⟩ := ih
    obtain ⟨u, hu⟩ := exists_unit c
    refine ⟨u :: us, ?_, ?_⟩
    · rw [encode, List.flatMap_cons, List.append_assoc, hu.scan_eq]
      rw [encode] at hscan
      rw [hscan]
      rfl
    · rw [hu.resolve_eq, hresolve]
      rfl

end AffineSwarm.Json.Quoted
