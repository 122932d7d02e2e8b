import AffineSwarm.Proofs.Decimal.Nearest
import AffineSwarm.Proofs.Json.Record

/-!
# Doubles in JSON texts

The digits of a double are those of its shortest decimal, and they are set out with a point, with
zeros, or with an exponent. However that is done, the parts of the text make a number that JSON
has (`Writes.isMagnitude`) and stand for that decimal, up to zeros at its end. The decimal is
nearest to the double, so the text reads back as the same bits (`binary64?_text`). Every double
has a value that can be written (`isPrintable_ofBinary64`); what is not finite is written as
`null`.
-/

namespace AffineSwarm.Json

open Ascii (isDigit isDigit_iff digitValue digitsValue splitFraction splitFraction_of_ne)
open Decimal (Layout Reads digitText zeros tenPow)

-- ---------------------------------------------------------------------------
-- Values of digits
-- ---------------------------------------------------------------------------

variable {c : Char} {cs : List Char}

theorem foldl_digits (n : Nat) (cs : List Char) :
    cs.foldl (fun n c => n * 10 + digitValue c) n = n * tenPow cs.length + digitsValue cs := by
  induction cs generalizing n with
  | nil => exact (Nat.mul_one n).symm
  | cons c cs ih =>
    rw [digitsValue, List.foldl_cons, List.foldl_cons, ih, ih, List.length_cons,
      Decimal.tenPow_succ, Nat.zero_mul, Nat.zero_add, Nat.add_mul, Nat.mul_assoc,
      Nat.mul_comm 10, Nat.add_assoc]

theorem digitsValue_append (cs ds : List Char) :
    digitsValue (cs ++ ds) = digitsValue cs * tenPow ds.length + digitsValue ds := by
  rw [digitsValue, List.foldl_append, ← digitsValue, foldl_digits]

theorem digitsValue_cons (c : Char) (cs : List Char) :
    digitsValue (c :: cs) = digitValue c * tenPow cs.length + digitsValue cs := by
  rw [← List.singleton_append, digitsValue_append, digitsValue, List.foldl_cons, List.foldl_nil,
    Nat.zero_mul, Nat.zero_add]

theorem digitsValue_replicate (n : Nat) : digitsValue (List.replicate n '0') = 0 := by
  induction n with
  | zero => rfl
  | succ n ih =>
    have hzero : digitValue '0' = 0 := rfl
    rw [List.replicate_succ, digitsValue_cons, ih, hzero, Nat.zero_mul]

/-- Zeros in front do not count. -/
theorem digitsValue_dropWhile (cs : List Char) :
    digitsValue (cs.dropWhile (· == '0')) = digitsValue cs := by
  induction cs with
  | nil => rfl
  | cons c cs ih =>
    rw [List.dropWhile_cons]
    split
    · next hzero =>
      have hvalue : digitValue '0' = 0 := rfl
      rw [ih, digitsValue_cons, eq_of_beq hzero, hvalue, Nat.zero_mul, Nat.zero_add]
    · rfl

theorem digitsValue_lt (h : ∀ c ∈ cs, isDigit c = true) : digitsValue cs < tenPow cs.length := by
  induction cs with
  | nil => exact Nat.one_pos
  | cons c cs ih =>
    obtain ⟨hc, hcs⟩ := List.forall_mem_cons.mp h
    have hdigit : digitValue c + 1 ≤ 10 := by
      rw [isDigit_iff] at hc
      rw [digitValue]
      omega
    have hrest := ih hcs
    have hplaces := Nat.mul_le_mul_right (tenPow cs.length) hdigit
    rw [Nat.add_one_mul] at hplaces
    rw [digitsValue_cons, List.length_cons, Decimal.tenPow_succ]
    omega

theorem le_digitsValue (hc : isDigit c = true) (hzero : c ≠ '0') (cs : List Char) :
    tenPow cs.length ≤ digitsValue (c :: cs) := by
  have hdigit : 0 < digitValue c := by
    have hne : c.toNat ≠ 48 := fun h => hzero (Char.toNat_inj.mp h)
    rw [isDigit_iff] at hc
    rw [digitValue]
    omega
  rw [digitsValue_cons]
  exact Nat.le_trans (Nat.le_mul_of_pos_left _ hdigit) (Nat.le_add_right ..)

-- ---------------------------------------------------------------------------
-- Reading back
-- ---------------------------------------------------------------------------

variable {whole fraction exponent : List Char} {e : Int} {d : Decimal} {m : Nat}

theorem IsFraction.digits (h : IsFraction fraction) : ∀ c ∈ fraction.drop 1, isDigit c = true := by
  rcases h with rfl | ⟨digits, hdigits, rfl⟩
  · nofun
  · exact hdigits.2

/-- The number that is nearest to what the parts of a text stand for. -/
theorem magnitude?_parts (negative : Bool) (hwhole : IsWhole whole)
    (hfraction : IsFraction fraction) (hexponent : IsExponent exponent)
    (hvalue : Decimal.exponent? exponent = some e) :
    Decimal.magnitude? negative (whole ++ fraction ++ exponent) =
      some (Decimal.nearest negative (digitsValue (whole ++ fraction.drop 1))
        ((whole ++ fraction.drop 1).dropWhile (· == '0')).length
        (e - (fraction.drop 1).length)) := by
  have hspan := span_digits hwhole.digits.2 (hfraction.head hexponent)
  have hsome : ∀ more, (whole ++ more).isEmpty = false := by
    obtain ⟨c, cs, rfl⟩ := List.exists_cons_of_ne_nil hwhole.digits.1
    exact fun _ => rfl
  have hpoint : splitFraction (fraction ++ exponent) = (fraction.drop 1, exponent) := by
    rcases hfraction with rfl | ⟨digits, hdigits, rfl⟩
    · exact splitFraction_of_ne fun c hc => (hexponent.head c hc).2
    · obtain ⟨htake, hdrop⟩ := span_digits hdigits.2 fun c hc => (hexponent.head c hc).1
      rw [List.cons_append, splitFraction, htake, hdrop]
      rfl
  rw [← List.append_assoc] at hspan
  simp only [Decimal.magnitude?, hspan, hpoint, hsome, Bool.false_eq_true, if_false, hvalue,
    Option.map_some, digitsValue_dropWhile]

/-- A text spells a decimal: of its parts, the digits make the decimal, up to zeros at the end of
it, as their point and the exponent have it. -/
def Writes (d : Decimal) (cs : List Char) : Prop :=
  ∃ whole fraction exponent e, IsWhole whole ∧ IsFraction fraction ∧ IsExponent exponent ∧
    cs = whole ++ fraction ++ exponent ∧ Decimal.exponent? exponent = some e ∧
    ∀ i, Reads i d →
      Reads i ⟨digitsValue (whole ++ fraction.drop 1), e - (fraction.drop 1).length⟩

theorem Writes.isMagnitude (h : Writes d cs) : IsMagnitude cs := by
  obtain ⟨whole, fraction, exponent, -, hwhole, hfraction, hexponent, hcs, -⟩ := h
  exact ⟨whole, fraction, exponent, hwhole, hfraction, hexponent, hcs⟩

/-- What is written of a decimal that reads back as a number is nearest to the number. -/
theorem Writes.magnitude? (h : Writes d cs) (negative : Bool) (hpos : 0 < m)
    (hfinite : m < Binary64.infinityBits) (hreads : Reads (.ofMagnitude m) d) :
    Decimal.magnitude? negative cs = some (.ofMagnitude negative m) := by
  obtain ⟨whole, fraction, exponent, e, hwhole, hfraction, hexponent, rfl, hvalue, hsame⟩ := h
  have hreads := hsame _ hreads
  have hnonzero : digitsValue (whole ++ fraction.drop 1) ≠ 0 :=
    Decimal.digits_ne_zero_of_reads hpos hreads
  have hdigits : ∀ c ∈ whole ++ fraction.drop 1, isDigit c = true :=
    List.forall_mem_append.mpr ⟨hwhole.digits.2, hfraction.digits⟩
  rw [magnitude?_parts negative hwhole hfraction hexponent hvalue]
  rw [← digitsValue_dropWhile] at hnonzero
  cases hsig : (whole ++ fraction.drop 1).dropWhile (· == '0') with
  | nil =>
    rw [hsig] at hnonzero
    exact absurd rfl hnonzero
  | cons c cs =>
    have hall : ∀ c' ∈ c :: cs, isDigit c' = true := by
      rw [← hsig]
      exact fun c' hc' => hdigits c' ((List.dropWhile_sublist _).mem hc')
    have hfirst : c ≠ '0' := by
      have hstop := List.head?_dropWhile_not (· == '0') (whole ++ fraction.drop 1)
      rw [hsig] at hstop
      exact ne_of_beq_false hstop
    have hvalue : digitsValue (c :: cs) = digitsValue (whole ++ fraction.drop 1) := by
      rw [← hsig, digitsValue_dropWhile]
    have hlow := le_digitsValue (hall c List.mem_cons_self) hfirst cs
    have hhigh := digitsValue_lt hall
    rw [hvalue] at hlow hhigh
    exact congrArg some (Decimal.nearest_of_reads negative hpos hfinite hreads hlow hhigh)

-- ---------------------------------------------------------------------------
-- Layouts
-- ---------------------------------------------------------------------------

theorem toList_zeros (n : Nat) : (zeros n).toList = List.replicate n '0' := String.toList_ofList

theorem isDigit_of_mem_zeros (n : Nat) : ∀ c ∈ (zeros n).toList, isDigit c = true := by
  rintro c hc
  rw [toList_zeros] at hc
  rw [List.eq_of_mem_replicate hc]
  rfl

theorem toList_take (s : String) (n : Nat) : (s.take n).toString.toList = s.toList.take n :=
  String.toList_copy_take

theorem toList_drop (s : String) (n : Nat) : (s.drop n).toString.toList = s.toList.drop n :=
  String.toList_copy_drop

/-- The first digits are a whole part. -/
theorem isWhole_take_digitText {n count : Nat} (hn : n ≠ 0) (hcount : 0 < count) :
    IsWhole ((digitText n).toList.take count) := by
  obtain ⟨c, cs, hcs, hc⟩ := head_digitText hn
  obtain ⟨count, rfl⟩ := Nat.exists_eq_add_one.mpr hcount
  refine .inr ⟨⟨?_, fun d hd => isDigit_of_mem_digitText (List.mem_of_mem_take hd)⟩, ?_⟩
  · rw [hcs, List.take_succ_cons]
    exact List.cons_ne_nil _ _
  · rw [hcs, List.take_succ_cons]
    rintro d hd
    cases hd
    exact hc

/-- A text of which all digits are those of a decimal spells it, if the point stands in the right
place. -/
theorem writes_of_digits (hwhole : IsWhole whole) (hfraction : IsFraction fraction)
    (hexponent : IsExponent exponent) (hvalue : Decimal.exponent? exponent = some e)
    (hdigits : digitsValue (whole ++ fraction.drop 1) = d.digits)
    (hplace : e - (fraction.drop 1).length = d.exponent) :
    Writes d (whole ++ fraction ++ exponent) := by
  refine ⟨whole, fraction, exponent, e, hwhole, hfraction, hexponent, rfl, hvalue, fun i h => ?_⟩
  rw [hdigits, hplace]
  exact h

/-- A large decimal gets its zeros, and another one behind the point. -/
theorem writes_zeros (h : d.digits ≠ 0) (hlarge : 0 ≤ d.exponent) :
    Writes d ((digitText d.digits).toList ++ (zeros d.exponent.toNat).toList ++ ".0".toList) := by
  refine ⟨_, ['.', '0'], [], 0, isWhole_digitText_append h (isDigit_of_mem_zeros _),
    .inr ⟨['0'], digits_zero, rfl⟩, .inl rfl, (List.append_nil _).symm, rfl, fun i hreads => ?_⟩
  have hzeros : (digitText d.digits).toList ++ (zeros d.exponent.toNat).toList ++ ['0'] =
      (digitText d.digits).toList ++ List.replicate (d.exponent.toNat + 1) '0' := by
    rw [toList_zeros, List.append_assoc, ← List.replicate_succ']
  have hplace : (0 : Int) - ['0'].length + (d.exponent.toNat + 1 : Nat) = d.exponent := by
    rw [List.length_singleton]
    omega
  show Reads i ⟨digitsValue (_ ++ ['0']), 0 - ['0'].length⟩
  rw [hzeros, digitsValue_append, digitsValue_digitText, digitsValue_replicate,
    List.length_replicate, Nat.add_zero, Decimal.reads_mul_tenPow, hplace]
  exact hreads

/-- The point stands between the digits. -/
theorem writes_point (h : d.digits ≠ 0) {places : Nat} (hplaces : d.exponent = -(places : Int))
    (hpos : 0 < places) (hpoint : places < (digitText d.digits).length) :
    Writes d ((digitText d.digits).toList.take ((digitText d.digits).length - places) ++
      '.' :: (digitText d.digits).toList.drop ((digitText d.digits).length - places)) := by
  have hlength : ((digitText d.digits).toList.drop
      ((digitText d.digits).length - places)).length = places := by
    rw [List.length_drop, String.length_toList]
    omega
  rw [← List.append_nil (_ ++ _)]
  refine writes_of_digits (isWhole_take_digitText h (Nat.sub_pos_of_lt hpoint))
    (.inr ⟨_, ⟨List.ne_nil_of_length_pos ?_, ?_⟩, rfl⟩) (.inl rfl) (e := 0) rfl ?_ ?_
  · rw [hlength]
    exact hpos
  · exact fun c hc => isDigit_of_mem_digitText (List.mem_of_mem_drop hc)
  · show digitsValue (_ ++ (digitText d.digits).toList.drop _) = _
    rw [List.take_append_drop, digitsValue_digitText]
  · show 0 - (((digitText d.digits).toList.drop _).length : Int) = _
    rw [hlength, hplaces, Int.zero_sub]

/-- All digits of a small decimal stand behind the point. -/
theorem writes_small (hdigits : Digits cs) (hvalue : digitsValue cs = d.digits)
    (hplaces : d.exponent = -(cs.length : Int)) : Writes d ('0' :: '.' :: cs) := by
  refine ⟨['0'], '.' :: cs, [], 0, .inl rfl, .inr ⟨cs, hdigits, rfl⟩, .inl rfl,
    (List.append_nil _).symm, rfl, fun i hreads => ?_⟩
  have hzero : digitValue '0' = 0 := rfl
  show Reads i ⟨digitsValue ('0' :: cs), 0 - (cs.length : Int)⟩
  rw [digitsValue_cons, hzero, Nat.zero_mul, Nat.zero_add, hvalue, Int.zero_sub, ← hplaces]
  exact hreads

theorem writes_positionalText (h : d.digits ≠ 0) :
    Writes d (Decimal.positionalText true d).toList := by
  simp only [Decimal.positionalText]
  split
  · next hlarge =>
    rw [String.toList_append, String.toList_append]
    exact writes_zeros h hlarge
  · next hsmall =>
    have hplaces : d.exponent = -((-d.exponent).toNat : Int) := by omega
    split
    · next hpoint =>
      rw [String.toList_append, String.toList_append, toList_take, toList_drop, List.append_assoc]
      exact writes_point h hplaces (by omega) hpoint
    · next hpoint =>
      have htext : "0.".toList = ['0', '.'] := rfl
      have hdigits := digits_digitText d.digits
      rw [String.toList_append, String.toList_append, List.append_assoc, htext, List.cons_append,
        List.singleton_append]
      refine writes_small ⟨List.append_ne_nil_of_right_ne_nil _ hdigits.1,
        List.forall_mem_append.mpr ⟨isDigit_of_mem_zeros _, hdigits.2⟩⟩ ?_ ?_
      · rw [digitsValue_append, toList_zeros, digitsValue_replicate, digitsValue_digitText,
          Nat.zero_mul, Nat.zero_add]
      · rw [List.length_append, toList_zeros, List.length_replicate, String.length_toList]
        omega

theorem exponent?_digits (negative : Bool) (hdigits : Digits cs) :
    Decimal.exponent? ('e' :: (if negative then '-' else '+') :: cs) =
      some (if negative then -(digitsValue cs : Int) else digitsValue cs) := by
  have hread : (cs.isEmpty || !cs.all isDigit) = false := by
    rw [List.all_eq_true.mpr hdigits.2, List.isEmpty_eq_false_iff.mpr hdigits.1]
    rfl
  rw [Decimal.exponent?, if_pos (by decide)]
  cases negative with
  | false =>
    show Decimal.integer? ('+' :: cs) = _
    simp only [Decimal.integer?, Decimal.splitSign, hread, Bool.false_eq_true, if_false]
  | true =>
    show Decimal.integer? ('-' :: cs) = _
    simp only [Decimal.integer?, Decimal.splitSign, hread, Bool.false_eq_true, if_true, if_false]

/-- An exponent is written with its sign. -/
theorem exponent?_lead (lead : Int) :
    ∃ exponent, "e".toList ++ ((if lead < 0 then "-" else "+").toList ++
        (digitText lead.natAbs).toList) = exponent ∧
      IsExponent exponent ∧ Decimal.exponent? exponent = some lead := by
  have hdigits := digits_digitText lead.natAbs
  by_cases hlead : lead < 0
  · have hread := exponent?_digits true hdigits
    have hvalue : -(digitsValue (digitText lead.natAbs).toList : Int) = lead := by
      rw [digitsValue_digitText]
      omega
    rw [if_pos rfl, if_pos rfl, hvalue] at hread
    rw [if_pos hlead]
    exact ⟨_, rfl, .inr ⟨'-', _, .inr rfl, hdigits, rfl⟩, hread⟩
  · have hread := exponent?_digits false hdigits
    have hvalue : (digitsValue (digitText lead.natAbs).toList : Int) = lead := by
      rw [digitsValue_digitText]
      omega
    rw [if_neg Bool.false_ne_true, if_neg Bool.false_ne_true, hvalue] at hread
    rw [if_neg hlead]
    exact ⟨_, rfl, .inr ⟨'+', _, .inl rfl, hdigits, rfl⟩, hread⟩

/-- There is a point if more than one digit is written. -/
theorem fraction_tail (n : Nat) : ∃ fraction,
    (if ((digitText n).drop 1).toString.isEmpty then "" else
      "." ++ ((digitText n).drop 1).toString).toList = fraction ∧
    IsFraction fraction ∧ fraction.drop 1 = (digitText n).toList.drop 1 := by
  split
  · next hnone =>
    rw [String.isEmpty_iff, ← String.toList_inj, toList_drop] at hnone
    exact ⟨_, rfl, .inl rfl, hnone.symm⟩
  · next hmore =>
    rw [String.isEmpty_iff, ← String.toList_inj, toList_drop] at hmore
    rw [String.toList_append, toList_drop]
    exact ⟨_, rfl,
      .inr ⟨_, ⟨hmore, fun c hc => isDigit_of_mem_digitText (List.mem_of_mem_drop hc)⟩, rfl⟩, rfl⟩

theorem writes_exponentText (h : d.digits ≠ 0) :
    Writes d (Decimal.exponentText d d.lead).toList := by
  obtain ⟨exponent, hexponent, hform, hvalue⟩ := exponent?_lead d.lead
  obtain ⟨fraction, hfraction, hpoint, htail⟩ := fraction_tail d.digits
  have htext : (Decimal.exponentText d d.lead).toList =
      (digitText d.digits).toList.take 1 ++ fraction ++ exponent := by
    simp only [Decimal.exponentText, String.toList_append, List.append_assoc, toList_take,
      hexponent, hfraction]
  rw [htext]
  refine writes_of_digits (isWhole_take_digitText h Nat.one_pos) hpoint hform hvalue ?_ ?_
  · rw [htail, List.take_append_drop, digitsValue_digitText]
  · obtain ⟨c, cs, hcs, -⟩ := head_digitText h
    rw [htail, List.length_drop, Decimal.lead, ← String.length_toList, hcs, List.length_cons]
    omega

-- ---------------------------------------------------------------------------
-- Doubles
-- ---------------------------------------------------------------------------

/-- Whatever its layout is, the text of a magnitude spells its shortest decimal. -/
theorem writes_magnitudeText (hpos : 0 < m) (hfinite : m < Binary64.infinityBits) :
    Writes (.shortest .even m) (Layout.json.magnitudeText m).toList := by
  have hdigits : (Decimal.shortest .even m).digits ≠ 0 :=
    Decimal.digits_ne_zero_of_reads hpos (Decimal.reads_shortest .even hpos hfinite)
  rw [Layout.magnitudeText, if_neg (Nat.ne_of_gt hpos)]
  show Writes _ (if _ then Decimal.positionalText true _ else _).toList
  split
  · exact writes_positionalText hdigits
  · exact writes_exponentText hdigits

theorem isMagnitude_magnitudeText (hfinite : m < Binary64.infinityBits) :
    IsMagnitude (Layout.json.magnitudeText m).toList := by
  rcases Nat.eq_zero_or_pos m with rfl | hpos
  · exact ⟨['0'], ['.', '0'], [], .inl rfl, .inr ⟨['0'], digits_zero, rfl⟩, .inl rfl, rfl⟩
  · exact (writes_magnitudeText hpos hfinite).isMagnitude

theorem magnitude?_magnitudeText (negative : Bool) (hfinite : m < Binary64.infinityBits) :
    Decimal.magnitude? negative (Layout.json.magnitudeText m).toList =
      some (.ofMagnitude negative m) := by
  rcases Nat.eq_zero_or_pos m with rfl | hpos
  · cases negative <;> rfl
  · exact (writes_magnitudeText hpos hfinite).magnitude? negative hpos hfinite
      (Decimal.reads_shortest .even hpos hfinite)

/-- The text of a finite double is that of its magnitude, with a sign in front if there is one. -/
theorem toList_text {x : Binary64} (h : x.isFinite = true) :
    (Layout.json.text x).toList =
      (if x.negative then ['-'] else []) ++ (Layout.json.magnitudeText x.magnitude).toList := by
  rw [Layout.text, Binary64.isNaN_of_isFinite h, h]
  show ((if x.negative then "-" else "") ++ Layout.json.magnitudeText x.magnitude).toList = _
  rw [String.toList_append]
  cases x.negative <;> rfl

/-- A finite double is written as a number. -/
theorem scanNumber_text {x : Binary64} (h : x.isFinite = true) :
    scanNumber (Layout.json.text x).toList = some ((Layout.json.text x).toList, []) := by
  have hmagnitude := isMagnitude_magnitudeText (of_decide_eq_true h)
  rw [toList_text h]
  cases x.negative with
  | false => exact hmagnitude.scanNumber
  | true => exact hmagnitude.scanNumber_neg

theorem isPrintable_ofBinary64 (x : Binary64) : (ofBinary64 x).isPrintable = true := by
  rw [ofBinary64]
  split
  · next hfinite =>
    rw [isPrintable, beq_iff_eq]
    exact scanNumber_text hfinite
  · rfl

theorem toLower_of_isDigit (hc : isDigit c = true) : c.toLower = c := by
  rw [isDigit_iff, Char.toNat] at hc
  refine dif_neg ?_
  rintro ⟨hletter, -⟩
  have hfirst : 'A'.val.toNat = 65 := rfl
  rw [ge_iff_le, UInt32.le_iff_toNat_le] at hletter
  omega

/-- What starts with a digit is none of the words. -/
theorem word?_of_isDigit (hc : isDigit c = true) (negative : Bool) (cs : List Char) :
    Decimal.word? negative (c :: cs) = none := by
  have hword : ∀ word, String.ofList ((c :: cs).map Char.toLower) = word →
      word.toList.head? = some c := by
    rintro word rfl
    rw [String.toList_ofList, List.map_cons, List.head?_cons, toLower_of_isDigit hc]
  have hnone : ∀ word letter, String.ofList ((c :: cs).map Char.toLower) = word →
      word.toList.head? = some letter → isDigit letter = true := by
    rintro word letter hcs hletter
    rw [hword word hcs] at hletter
    rwa [← Option.some.inj hletter]
  rw [Decimal.word?]
  split
  · next h => exact (Bool.false_ne_true (hnone _ 'i' h rfl)).elim
  · next h => exact (Bool.false_ne_true (hnone _ 'i' h rfl)).elim
  · next h => exact (Bool.false_ne_true (hnone _ 'n' h rfl)).elim
  · rfl

theorem splitSign_of_isDigit (hc : isDigit c = true) (cs : List Char) :
    Decimal.splitSign (c :: cs) = (false, c :: cs) := by
  rw [Decimal.splitSign]
  · rintro _ h
    rw [(List.cons.inj h).1] at hc
    cases hc
  · rintro _ h
    rw [(List.cons.inj h).1] at hc
    cases hc

/-- **A written double reads back.** The text of a finite double is read as the same bits. -/
theorem binary64?_text {x : Binary64} (h : x.isFinite = true) :
    Decimal.binary64? (Layout.json.text x).toList = some x := by
  have hfinite : x.magnitude < Binary64.infinityBits := of_decide_eq_true h
  have hread : ∀ negative, _ := fun negative => magnitude?_magnitudeText negative hfinite
  obtain ⟨whole, fraction, exponent, hwhole, -, -, hparts⟩ := isMagnitude_magnitudeText hfinite
  obtain ⟨c, cs, rfl⟩ := List.exists_cons_of_ne_nil hwhole.digits.1
  have hc : isDigit c = true := hwhole.digits.2 c List.mem_cons_self
  have hx := x.ofMagnitude_magnitude
  rw [toList_text h]
  rw [hparts, List.cons_append, List.cons_append] at hread ⊢
  cases hnegative : x.negative with
  | false =>
    rw [hnegative] at hx
    simp only [Bool.false_eq_true, if_false, List.nil_append, Decimal.binary64?,
      splitSign_of_isDigit hc, word?_of_isDigit hc, hread, hx, Option.none_or]
  | true =>
    rw [hnegative] at hx
    simp only [if_true, List.singleton_append, Decimal.binary64?, Decimal.splitSign,
      word?_of_isDigit hc, hread, hx, Option.none_or]

/-- A value stands for a double: it is a number that reads back as the same bits, or `null` if
the double is not finite. -/
def Shows (value : Json) (x : Binary64) : Prop :=
  if x.isFinite then ∃ text, value = .number text ∧ Decimal.binary64? text = some x
  else value = .null

theorem shows_ofBinary64 (x : Binary64) : (ofBinary64 x).Shows x := by
  rw [Shows, ofBinary64]
  split
  · next hfinite => exact ⟨_, rfl, binary64?_text hfinite⟩
  · rfl

end AffineSwarm.Json
