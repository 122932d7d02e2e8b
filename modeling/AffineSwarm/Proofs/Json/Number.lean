import AffineSwarm.Json.Number

/-!
# Numbers in JSON texts

A number is read up to its end: a reader that takes all of a number takes the same in front of
any text that no number goes on with (`scanNumber_append`). What is put together from a whole
part, a fraction and an exponent is read as a number (`IsMagnitude.scanNumber`). An integer is
written as a number (`scanNumber_digitText`, `scanNumber_intText`), and read as one it is the
integer again, however large it is (`integer?_digitText`, `integer?_intText`).
-/

namespace AffineSwarm.Json

open Ascii (isDigit digitsValue)

-- ---------------------------------------------------------------------------
-- Numbers
-- ---------------------------------------------------------------------------

/-- A text that no number goes on with. -/
def EndsNumber (rest : List Char) : Prop :=
  ∀ c ∈ rest.head?, isDigit c = false ∧ c ≠ '.' ∧ c ≠ 'e' ∧ c ≠ 'E'

theorem endsNumber_nil : EndsNumber [] := by
  intro c hc
  cases hc

theorem endsNumber_cons {c : Char} (hc : isDigit c = false ∧ c ≠ '.' ∧ c ≠ 'e' ∧ c ≠ 'E')
    (rest : List Char) : EndsNumber (c :: rest) := by
  intro d hd
  cases hd
  exact hc

variable {cs parsed left rest : List Char}

theorem scanWhole_of_ne {c : Char} (hc : c ≠ '0') (cs : List Char) :
    scanWhole (c :: cs) = scanDigits (c :: cs) := by
  rw [scanWhole]
  rintro _ h
  exact hc (List.cons.inj h).1

theorem scanFraction_of_ne (hcs : ∀ c ∈ cs.head?, c ≠ '.') : scanFraction cs = some ([], cs) := by
  rw [scanFraction]
  rintro _ rfl
  exact hcs '.' rfl rfl

theorem scanNumber_of_ne {c : Char} (hc : c ≠ '-') (cs : List Char) :
    scanNumber (c :: cs) = scanMagnitude (c :: cs) := by
  rw [scanNumber]
  rintro _ h
  exact hc (List.cons.inj h).1

theorem span_append (hrest : EndsNumber rest) (cs : List Char) :
    (cs ++ rest).takeWhile isDigit = cs.takeWhile isDigit ∧
      (cs ++ rest).dropWhile isDigit = cs.dropWhile isDigit ++ rest := by
  induction cs with
  | nil =>
    cases rest with
    | nil => exact ⟨rfl, rfl⟩
    | cons c rest =>
      obtain ⟨hdigit, -⟩ := hrest c rfl
      rw [List.nil_append, List.takeWhile_cons, List.dropWhile_cons, hdigit]
      exact ⟨rfl, rfl⟩
  | cons c cs ih =>
    rw [List.cons_append, List.takeWhile_cons, List.takeWhile_cons, List.dropWhile_cons,
      List.dropWhile_cons]
    split
    · exact ⟨congrArg (c :: ·) ih.1, ih.2⟩
    · exact ⟨rfl, rfl⟩

theorem scanDigits_append (hrest : EndsNumber rest) (h : scanDigits cs = some (parsed, left)) :
    scanDigits (cs ++ rest) = some (parsed, left ++ rest) := by
  obtain ⟨htake, hdrop⟩ := span_append hrest cs
  rw [scanDigits] at h ⊢
  rw [htake, hdrop]
  split at h
  · cases h
  · cases h
    rfl

theorem scanWhole_append (hrest : EndsNumber rest) (h : scanWhole cs = some (parsed, left)) :
    scanWhole (cs ++ rest) = some (parsed, left ++ rest) := by
  cases cs with
  | nil => cases h
  | cons c cs =>
    by_cases hc : c = '0'
    · subst hc
      cases h
      rfl
    · rw [scanWhole_of_ne hc] at h
      rw [List.cons_append, scanWhole_of_ne hc]
      exact scanDigits_append hrest h

theorem scanFraction_append (hrest : EndsNumber rest)
    (h : scanFraction cs = some (parsed, left)) :
    scanFraction (cs ++ rest) = some (parsed, left ++ rest) := by
  cases cs with
  | nil =>
    -- nothing is left of the number, and what comes after it starts with no point
    cases h
    exact scanFraction_of_ne fun c hc => (hrest c hc).2.1
  | cons c cs =>
    by_cases hc : c = '.'
    · subst hc
      rw [scanFraction, Option.map_eq_some_iff] at h
      obtain ⟨⟨digits, after⟩, hdigits, hparsed⟩ := h
      cases hparsed
      rw [List.cons_append, scanFraction, scanDigits_append hrest hdigits]
      rfl
    · have hhead : ∀ cs, scanFraction (c :: cs) = some ([], c :: cs) := by
        intro cs
        refine scanFraction_of_ne fun d hd => ?_
        cases hd
        exact hc
      rw [hhead] at h
      cases h
      exact hhead (cs ++ rest)

theorem scanSign_append {c : Char} (cs rest : List Char) :
    scanSign (c :: cs ++ rest) = ((scanSign (c :: cs)).1, (scanSign (c :: cs)).2 ++ rest) := by
  by_cases hplus : c = '+'
  · subst hplus
    rfl
  by_cases hminus : c = '-'
  · subst hminus
    rfl
  have hnone : ∀ cs, scanSign (c :: cs) = ([], c :: cs) := by
    intro cs
    rw [scanSign]
    · rintro _ h
      exact hplus (List.cons.inj h).1
    · rintro _ h
      exact hminus (List.cons.inj h).1
  rw [List.cons_append, hnone, hnone]
  rfl

theorem scanExponent_append (hrest : EndsNumber rest)
    (h : scanExponent cs = some (parsed, left)) :
    scanExponent (cs ++ rest) = some (parsed, left ++ rest) := by
  cases cs with
  | nil =>
    cases h
    cases rest with
    | nil => rfl
    | cons c rest =>
      obtain ⟨-, -, hlower, hupper⟩ := hrest c rfl
      rw [List.nil_append, scanExponent, decide_eq_false hlower, decide_eq_false hupper]
      rfl
  | cons c cs =>
    rw [scanExponent] at h
    rw [List.cons_append, scanExponent]
    split
    · next hletter =>
      rw [if_pos hletter, Option.map_eq_some_iff] at h
      obtain ⟨⟨digits, after⟩, hdigits, hparsed⟩ := h
      cases hparsed
      cases cs with
      | nil => cases hdigits
      | cons d cs =>
        simp only [scanSign_append, scanDigits_append hrest hdigits]
        rfl
    · next hletter =>
      rw [if_neg hletter] at h
      cases h
      rfl

theorem scanMagnitude_append (hrest : EndsNumber rest)
    (h : scanMagnitude cs = some (parsed, left)) :
    scanMagnitude (cs ++ rest) = some (parsed, left ++ rest) := by
  simp only [scanMagnitude, Option.bind_eq_bind, Option.bind_eq_some_iff] at h
  obtain ⟨⟨whole, afterWhole⟩, hwhole, ⟨fraction, afterFraction⟩, hfraction,
    ⟨exponent, afterExponent⟩, hexponent, hparsed⟩ := h
  cases hparsed
  dsimp only at hfraction hexponent
  simp only [scanMagnitude, Option.bind_eq_bind, Option.bind_some,
    scanWhole_append hrest hwhole, scanFraction_append hrest hfraction,
    scanExponent_append hrest hexponent]
  rfl

/-- A number is read up to its end. -/
theorem scanNumber_append (hrest : EndsNumber rest) (h : scanNumber cs = some (parsed, left)) :
    scanNumber (cs ++ rest) = some (parsed, left ++ rest) := by
  cases cs with
  | nil => cases h
  | cons c cs =>
    by_cases hminus : c = '-'
    · subst hminus
      rw [scanNumber, Option.map_eq_some_iff] at h
      obtain ⟨⟨text, after⟩, htext, hparsed⟩ := h
      cases hparsed
      rw [List.cons_append, scanNumber, scanMagnitude_append hrest htext]
      rfl
    · rw [scanNumber_of_ne hminus] at h
      rw [List.cons_append, scanNumber_of_ne hminus]
      exact scanMagnitude_append hrest h

theorem head_of_scanDigits {c : Char} (h : scanDigits (c :: cs) = some (parsed, left)) :
    isDigit c = true := by
  rw [scanDigits, List.takeWhile_cons] at h
  by_cases hc : isDigit c = true
  · exact hc
  · rw [if_neg hc] at h
    cases h

/-- A number starts with its sign or a digit. -/
theorem head_of_scanNumber {c : Char} (h : scanNumber (c :: cs) = some (parsed, left)) :
    c = '-' ∨ isDigit c = true := by
  by_cases hminus : c = '-'
  · exact .inl hminus
  · right
    rw [scanNumber_of_ne hminus] at h
    simp only [scanMagnitude, Option.bind_eq_bind, Option.bind_eq_some_iff] at h
    obtain ⟨⟨whole, after⟩, hwhole, -⟩ := h
    by_cases hzero : c = '0'
    · subst hzero
      rfl
    · rw [scanWhole_of_ne hzero] at hwhole
      exact head_of_scanDigits hwhole

-- ---------------------------------------------------------------------------
-- The parts of a number
-- ---------------------------------------------------------------------------

/-- Digits, and at least one. -/
def Digits (cs : List Char) : Prop := cs ≠ [] ∧ ∀ c ∈ cs, isDigit c = true

/-- Digits that have no zero in front, or the zero alone. -/
def IsWhole (cs : List Char) : Prop := cs = ['0'] ∨ Digits cs ∧ ∀ c ∈ cs.head?, c ≠ '0'

/-- Nothing, or a point and digits. -/
def IsFraction (cs : List Char) : Prop := cs = [] ∨ ∃ digits, Digits digits ∧ cs = '.' :: digits

/-- Nothing, or an exponent letter, a sign and digits. -/
def IsExponent (cs : List Char) : Prop :=
  cs = [] ∨ ∃ sign digits, (sign = '+' ∨ sign = '-') ∧ Digits digits ∧ cs = 'e' :: sign :: digits

/-- A whole part, a fraction and an exponent. -/
def IsMagnitude (cs : List Char) : Prop :=
  ∃ whole fraction exponent, IsWhole whole ∧ IsFraction fraction ∧ IsExponent exponent ∧
    cs = whole ++ fraction ++ exponent

variable {whole fraction exponent : List Char}

/-- Digits end at the first character that is none. -/
theorem span_digits (hall : ∀ c ∈ cs, isDigit c = true)
    (hrest : ∀ c ∈ rest.head?, isDigit c = false) :
    (cs ++ rest).takeWhile isDigit = cs ∧ (cs ++ rest).dropWhile isDigit = rest := by
  rw [List.takeWhile_append_of_pos hall, List.dropWhile_append_of_pos hall]
  cases rest with
  | nil => exact ⟨List.append_nil cs, rfl⟩
  | cons c rest =>
    rw [List.takeWhile_cons, List.dropWhile_cons, hrest c rfl]
    exact ⟨List.append_nil cs, rfl⟩

theorem Digits.scan (h : Digits cs) (hrest : ∀ c ∈ rest.head?, isDigit c = false) :
    scanDigits (cs ++ rest) = some (cs, rest) := by
  obtain ⟨htake, hdrop⟩ := span_digits h.2 hrest
  obtain ⟨c, cs, rfl⟩ := List.exists_cons_of_ne_nil h.1
  rw [scanDigits, htake, hdrop]

theorem digits_zero : Digits ['0'] := ⟨List.cons_ne_nil _ _, List.forall_mem_singleton.mpr rfl⟩

theorem Digits.append (h : Digits cs) (hrest : ∀ c ∈ rest, isDigit c = true) :
    Digits (cs ++ rest) :=
  ⟨List.append_ne_nil_of_left_ne_nil h.1 rest, List.forall_mem_append.mpr ⟨h.2, hrest⟩⟩

theorem IsWhole.digits (h : IsWhole whole) : Digits whole := by
  rcases h with rfl | ⟨hdigits, -⟩
  · exact digits_zero
  · exact hdigits

theorem IsWhole.scan (h : IsWhole whole) (hrest : ∀ c ∈ rest.head?, isDigit c = false) :
    scanWhole (whole ++ rest) = some (whole, rest) := by
  rcases h with rfl | ⟨hdigits, hhead⟩
  · rfl
  · obtain ⟨c, cs, rfl⟩ := List.exists_cons_of_ne_nil hdigits.1
    rw [List.cons_append, scanWhole_of_ne (hhead c rfl), ← List.cons_append, hdigits.scan hrest]

theorem IsFraction.scan (h : IsFraction fraction)
    (hrest : ∀ c ∈ rest.head?, isDigit c = false ∧ c ≠ '.') :
    scanFraction (fraction ++ rest) = some (fraction, rest) := by
  rcases h with rfl | ⟨digits, hdigits, rfl⟩
  · exact scanFraction_of_ne fun c hc => (hrest c hc).2
  · rw [List.cons_append, scanFraction, hdigits.scan fun c hc => (hrest c hc).1]
    rfl

theorem IsExponent.scan (h : IsExponent exponent) :
    scanExponent exponent = some (exponent, []) := by
  rcases h with rfl | ⟨sign, digits, hsign, hdigits, rfl⟩
  · rfl
  · have hscan : scanDigits (digits ++ []) = some (digits, []) := hdigits.scan nofun
    rw [List.append_nil] at hscan
    rcases hsign with rfl | rfl
    · simp [scanExponent, scanSign, hscan]
    · simp [scanExponent, scanSign, hscan]

theorem IsExponent.head (h : IsExponent exponent) :
    ∀ c ∈ exponent.head?, isDigit c = false ∧ c ≠ '.' := by
  rcases h with rfl | ⟨sign, digits, -, -, rfl⟩
  · nofun
  · rintro c hc
    cases hc
    decide

theorem IsFraction.head (h : IsFraction fraction) (hexponent : IsExponent exponent) :
    ∀ c ∈ (fraction ++ exponent).head?, isDigit c = false := by
  rcases h with rfl | ⟨digits, -, rfl⟩
  · exact fun c hc => (hexponent.head c hc).1
  · rintro c hc
    cases hc
    decide

/-- A number is made of its parts. -/
theorem IsMagnitude.scan (h : IsMagnitude cs) : scanMagnitude cs = some (cs, []) := by
  obtain ⟨whole, fraction, exponent, hwhole, hfraction, hexponent, rfl⟩ := h
  have hscan := hwhole.scan (hfraction.head hexponent)
  rw [← List.append_assoc] at hscan
  simp only [scanMagnitude, Option.bind_eq_bind, Option.bind_some, hscan,
    hfraction.scan hexponent.head, hexponent.scan]
  rfl

/-- A number that is not negative is its magnitude. -/
theorem IsMagnitude.scanNumber (h : IsMagnitude cs) :
    Json.scanNumber cs = some (cs, []) := by
  have hscan := h.scan
  cases cs with
  | nil => cases hscan
  | cons c cs =>
    by_cases hminus : c = '-'
    · subst hminus
      cases hscan
    · rw [scanNumber_of_ne hminus, hscan]

/-- A negative number is its magnitude after the sign. -/
theorem IsMagnitude.scanNumber_neg (h : IsMagnitude cs) :
    Json.scanNumber ('-' :: cs) = some ('-' :: cs, []) := by
  rw [Json.scanNumber, h.scan]
  rfl

-- ---------------------------------------------------------------------------
-- Integers
-- ---------------------------------------------------------------------------

theorem isDigit_of_mem_digitText {n : Nat} {c : Char} (hc : c ∈ (Decimal.digitText n).toList) :
    isDigit c = true := by
  rw [Decimal.digitText, Nat.toList_repr] at hc
  exact Nat.isDigit_of_mem_toDigits (by decide) (by decide) hc

theorem all_isDigit_digitText (n : Nat) : (Decimal.digitText n).toList.all isDigit = true :=
  List.all_eq_true.mpr fun _ => isDigit_of_mem_digitText

theorem digitsValue_digitText (n : Nat) : digitsValue (Decimal.digitText n).toList = n := by
  have hvalue := Nat.ofDigitChars_ten_toDigits (n := n)
  rw [Nat.ofDigitChars_eq_foldl, ← Nat.toList_repr] at hvalue
  simp only [Nat.mul_comm 10] at hvalue
  exact hvalue

/-- A positive number is written without zeros in front. -/
theorem head_digitText {n : Nat} (hn : n ≠ 0) :
    ∃ c cs, (Decimal.digitText n).toList = c :: cs ∧ c ≠ '0' := by
  rw [Decimal.digitText, Nat.toList_repr]
  induction n using Nat.strongRecOn with
  | ind n ih =>
    rw [Nat.toDigits_eq_if (by decide)]
    split
    · next hlt =>
      have hdigit : ∀ n < 10, n ≠ 0 → Nat.digitChar n ≠ '0' := by decide
      exact ⟨_, [], rfl, hdigit n hlt hn⟩
    · next hge =>
      obtain ⟨c, cs, hcs, hc⟩ := ih (n / 10) (by omega) (by omega)
      exact ⟨c, cs ++ [Nat.digitChar (n % 10)], by rw [hcs, List.cons_append], hc⟩

/-- The text of a natural number is no text of a negative one. -/
theorem head_digitText_ne_minus (n : Nat) :
    ∃ c cs, (Decimal.digitText n).toList = c :: cs ∧ c ≠ '-' := by
  cases hcs : (Decimal.digitText n).toList with
  | nil =>
    rw [Decimal.digitText, Nat.toList_repr] at hcs
    exact absurd hcs Nat.toDigits_ne_nil
  | cons c cs =>
    have hdigit : isDigit c = true := isDigit_of_mem_digitText (hcs ▸ List.mem_cons_self)
    refine ⟨c, cs, rfl, ?_⟩
    rintro rfl
    exact absurd hdigit (by decide)

theorem digits_digitText (n : Nat) : Digits (Decimal.digitText n).toList := by
  obtain ⟨c, cs, hcs, -⟩ := head_digitText_ne_minus n
  exact ⟨hcs ▸ List.cons_ne_nil c cs, fun _ => isDigit_of_mem_digitText⟩

/-- Digits stay a whole part when others come after them. -/
theorem isWhole_digitText_append {n : Nat} (hn : n ≠ 0)
    (hrest : ∀ c ∈ rest, isDigit c = true) :
    IsWhole ((Decimal.digitText n).toList ++ rest) := by
  obtain ⟨c, cs, hcs, hc⟩ := head_digitText hn
  refine .inr ⟨(digits_digitText n).append hrest, ?_⟩
  rw [hcs]
  rintro d hd
  cases hd
  exact hc

theorem isMagnitude_digitText (n : Nat) : IsMagnitude (Decimal.digitText n).toList := by
  have hwhole : IsWhole (Decimal.digitText n).toList := by
    by_cases hn : n = 0
    · subst hn
      exact .inl rfl
    · have happend : IsWhole ((Decimal.digitText n).toList ++ []) :=
        isWhole_digitText_append hn nofun
      rwa [List.append_nil] at happend
  exact ⟨_, [], [], hwhole, .inl rfl, .inl rfl, by rw [List.append_nil, List.append_nil]⟩

theorem toList_intText_of_neg {n : Int} (hn : n < 0) :
    (Decimal.intText n).toList = '-' :: (Decimal.digitText n.natAbs).toList := by
  rw [Decimal.intText, if_pos hn, String.toList_append]
  rfl

theorem intText_of_nonneg {n : Int} (hn : ¬n < 0) :
    Decimal.intText n = Decimal.digitText n.natAbs := if_neg hn

/-- A natural number is written as a number. -/
theorem scanNumber_digitText (n : Nat) :
    scanNumber (Decimal.digitText n).toList = some ((Decimal.digitText n).toList, []) :=
  (isMagnitude_digitText n).scanNumber

/-- An integer is written as a number. -/
theorem scanNumber_intText (n : Int) :
    scanNumber (Decimal.intText n).toList = some ((Decimal.intText n).toList, []) := by
  by_cases hn : n < 0
  · rw [toList_intText_of_neg hn]
    exact (isMagnitude_digitText n.natAbs).scanNumber_neg
  · rw [intText_of_nonneg hn]
    exact scanNumber_digitText n.natAbs

theorem integer?_digitText (n : Nat) : integer? (Decimal.digitText n).toList = some (n : Int) := by
  obtain ⟨c, cs, hcs, hc⟩ := head_digitText_ne_minus n
  have hall := all_isDigit_digitText n
  have hvalue := digitsValue_digitText n
  rw [hcs] at hall hvalue ⊢
  rw [integer?, if_pos hall, hvalue]
  rintro _ h
  exact hc (List.cons.inj h).1

theorem integer?_intText (n : Int) : integer? (Decimal.intText n).toList = some n := by
  by_cases hn : n < 0
  · -- minus zero would be no integer, but zero is written without a sign
    obtain ⟨c, cs, hcs, hc⟩ := head_digitText (n := n.natAbs) (by omega)
    have hnonzero : ((Decimal.digitText n.natAbs).toList != ['0']) = true := by
      rw [hcs, bne_iff_ne]
      intro h
      exact hc (List.cons.inj h).1
    rw [toList_intText_of_neg hn, integer?, all_isDigit_digitText, hnonzero, digitsValue_digitText]
    exact congrArg some (by omega)
  · rw [intText_of_nonneg hn, integer?_digitText]
    exact congrArg some (by omega)

end AffineSwarm.Json
