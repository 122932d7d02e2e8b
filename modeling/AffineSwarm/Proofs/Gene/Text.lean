import AffineSwarm.Formula.Json
import AffineSwarm.Proofs.Json.RoundTrip

/-!
# The text of a gene is exact

The digits of a gene are written with the ten digits of ASCII, and only texts of these are read,
so reading and writing are inverse to each other. Every text is of one of three kinds: it is the
text of a gene, or it has digits only but too many of them, or it has a first character that is no
digit (`exists_gene_or_long_or_stray`). Reading tells the three kinds apart (`ofChars?_chars`,
`ofChars?_of_long`, `ofChars?_of_stray`), which decides what it accepts and what it says of all
other texts.

In JSON a gene is a string of its text. None of its characters needs an escape there.
-/

namespace AffineSwarm.Gene

open Ascii (isDigit isDigit_iff)

-- ---------------------------------------------------------------------------
-- Characters
-- ---------------------------------------------------------------------------

theorem charDigit?_digitChar : ∀ d : Fin 10, charDigit? (digitChar d) = some d := by
  decide

theorem isDigit_digitChar : ∀ d : Fin 10, isDigit (digitChar d) = true := by
  decide

theorem exists_digitChar {c : Char} (h : isDigit c = true) : ∃ d : Fin 10, c = digitChar d := by
  rw [isDigit_iff] at h
  refine ⟨⟨c.toNat - 48, by omega⟩, ?_⟩
  rw [digitChar, Nat.add_sub_cancel' h.1, Char.ofNat_toNat]

theorem charDigit?_of_stray {c : Char} (h : isDigit c = false) : charDigit? c = none :=
  dif_neg (mt isDigit_iff.mpr (Bool.eq_false_iff.mp h))

-- ---------------------------------------------------------------------------
-- Texts
-- ---------------------------------------------------------------------------

theorem digitsOfChars_map (digits : List (Fin 10)) :
    digitsOfChars (digits.map digitChar) = .ok digits := by
  induction digits with
  | nil => rfl
  | cons d rest ih =>
    rw [List.map_cons, digitsOfChars, charDigit?_digitChar]
    simp only [ih]
    rfl

theorem digitsOfChars_of_stray (digits : List (Fin 10)) {c : Char} (h : isDigit c = false)
    (after : List Char) :
    digitsOfChars (digits.map digitChar ++ c :: after) = .error (.badCharacter c) := by
  induction digits with
  | nil =>
    rw [List.map_nil, List.nil_append, digitsOfChars, charDigit?_of_stray h]
  | cons d rest ih =>
    rw [List.map_cons, List.cons_append, digitsOfChars, charDigit?_digitChar]
    simp only [ih]
    rfl

theorem exists_digits_of_isDigit {cs : List Char} (h : ∀ c ∈ cs, isDigit c = true) :
    ∃ digits : List (Fin 10), cs = digits.map digitChar := by
  induction cs with
  | nil => exact ⟨[], rfl⟩
  | cons c rest ih =>
    obtain ⟨hc, hrest⟩ := List.forall_mem_cons.mp h
    obtain ⟨d, rfl⟩ := exists_digitChar hc
    obtain ⟨digits, rfl⟩ := ih hrest
    exact ⟨d :: digits, rfl⟩

theorem isDigit_of_mem_chars (g : Gene) : ∀ c ∈ g.chars, isDigit c = true := by
  intro c hc
  obtain ⟨d, -, rfl⟩ := List.mem_map.mp hc
  exact isDigit_digitChar d

theorem length_chars (g : Gene) : g.chars.length = g.length := List.length_map _

theorem ofChars?_chars (g : Gene) : ofChars? g.chars = .ok g := by
  rw [ofChars?, chars, digitsOfChars_map]
  exact dif_pos g.length_le

theorem ofChars?_of_long {cs : List Char} (hdigits : ∀ c ∈ cs, isDigit c = true)
    (hlong : 32 < cs.length) : ofChars? cs = .error (.tooLong cs.length) := by
  obtain ⟨digits, rfl⟩ := exists_digits_of_isDigit hdigits
  rw [List.length_map] at hlong ⊢
  rw [ofChars?, digitsOfChars_map]
  exact dif_neg (Nat.not_le.mpr hlong)

theorem ofChars?_of_stray {before after : List Char} {c : Char}
    (hdigits : ∀ d ∈ before, isDigit d = true) (hc : isDigit c = false) :
    ofChars? (before ++ c :: after) = .error (.badCharacter c) := by
  obtain ⟨digits, rfl⟩ := exists_digits_of_isDigit hdigits
  rw [ofChars?, digitsOfChars_of_stray digits hc]
  rfl

/-- The text of a gene, or too many digits, or a first character that is no digit. -/
theorem exists_gene_or_long_or_stray (cs : List Char) :
    (∃ g : Gene, cs = g.chars) ∨ ((∀ c ∈ cs, isDigit c = true) ∧ 32 < cs.length) ∨
    (∃ before c after, cs = before ++ c :: after ∧ (∀ d ∈ before, isDigit d = true) ∧
      isDigit c = false) := by
  cases hfind : cs.find? (fun c => !isDigit c) with
  | some c =>
    obtain ⟨hc, before, after, hcs, hbefore⟩ := List.find?_eq_some_iff_append.mp hfind
    refine .inr (.inr ⟨before, c, after, hcs, fun d hd => ?_, by simpa using hc⟩)
    simpa using hbefore d hd
  | none =>
    have hdigits : ∀ c ∈ cs, isDigit c = true := by
      simpa using List.find?_eq_none.mp hfind
    by_cases hlong : 32 < cs.length
    · exact .inr (.inl ⟨hdigits, hlong⟩)
    · obtain ⟨digits, rfl⟩ := exists_digits_of_isDigit hdigits
      rw [List.length_map] at hlong
      exact .inl ⟨⟨digits, Nat.le_of_not_lt hlong⟩, rfl⟩

-- ---------------------------------------------------------------------------
-- What is read, and what is said of the rest
-- ---------------------------------------------------------------------------

/-- What is said of a text that is no gene. A character that is no digit is named before the
length is looked at. -/
inductive Refused (cs : List Char) : String → Prop where
  | stray {before after : List Char} {c : Char} (split : cs = before ++ c :: after)
    (digits : ∀ d ∈ before, isDigit d = true) (no_digit : isDigit c = false) :
    Refused cs ("'" ++ c.toString ++ "' is not a decimal digit")
  | long (digits : ∀ c ∈ cs, isDigit c = true) (too_many : 32 < cs.length) :
    Refused cs (Nat.repr cs.length ++ " digits exceeds the 32 digit limit")

theorem ofChars?_eq_ok_iff {cs : List Char} {g : Gene} : ofChars? cs = .ok g ↔ g.chars = cs := by
  constructor
  · intro hread
    rcases exists_gene_or_long_or_stray cs with
      ⟨h, rfl⟩ | ⟨hdigits, hlong⟩ | ⟨before, c, after, rfl, hdigits, hc⟩
    · rw [ofChars?_chars] at hread
      rw [Except.ok.inj hread]
    · rw [ofChars?_of_long hdigits hlong] at hread
      cases hread
    · rw [ofChars?_of_stray hdigits hc] at hread
      cases hread
  · rintro rfl
    exact g.ofChars?_chars

theorem ofText?_eq_ok_iff {s : String} {g : Gene} : ofText? s = .ok g ↔ g.text = s := by
  rw [ofText?, ofChars?_eq_ok_iff, text, ← String.toList_inj, String.toList_ofList]

/-- The texts that are read are those of at most 32 digits. -/
theorem exists_ofChars?_iff {cs : List Char} :
    (∃ g, ofChars? cs = .ok g) ↔ cs.length ≤ 32 ∧ ∀ c ∈ cs, isDigit c = true := by
  constructor
  · rintro ⟨g, hread⟩
    rw [ofChars?_eq_ok_iff] at hread
    subst hread
    exact ⟨Nat.le_trans (Nat.le_of_eq g.length_chars) g.length_le, g.isDigit_of_mem_chars⟩
  · rintro ⟨hlength, hdigits⟩
    obtain ⟨digits, rfl⟩ := exists_digits_of_isDigit hdigits
    rw [List.length_map] at hlength
    exact ⟨⟨digits, hlength⟩, ofChars?_chars ⟨digits, hlength⟩⟩

theorem exists_error_iff {cs : List Char} {m : String} :
    (∃ e, ofChars? cs = .error e ∧ e.message = m) ↔ Refused cs m := by
  constructor
  · rintro ⟨e, hread, rfl⟩
    rcases exists_gene_or_long_or_stray cs with
      ⟨g, rfl⟩ | ⟨hdigits, hlong⟩ | ⟨before, c, after, rfl, hdigits, hc⟩
    · rw [ofChars?_chars] at hread
      cases hread
    · rw [ofChars?_of_long hdigits hlong] at hread
      cases hread
      exact .long hdigits hlong
    · rw [ofChars?_of_stray hdigits hc] at hread
      cases hread
      exact .stray rfl hdigits hc
  · rintro (⟨rfl, hdigits, hc⟩ | ⟨hdigits, hlong⟩)
    · exact ⟨_, ofChars?_of_stray hdigits hc, rfl⟩
    · exact ⟨_, ofChars?_of_long hdigits hlong, rfl⟩

-- ---------------------------------------------------------------------------
-- JSON
-- ---------------------------------------------------------------------------

theorem encodeChar_digitChar :
    ∀ d : Fin 10, Json.Quoted.encodeChar (digitChar d) = [digitChar d] := by
  decide

theorem encode_chars (g : Gene) : Json.Quoted.encode g.chars = g.chars := by
  rw [Json.Quoted.encode, chars, List.flatMap_map]
  simp only [encodeChar_digitChar]
  rw [← List.map_eq_flatMap]

/-- A gene in JSON is its digits between quotes. -/
theorem text?_toJson (g : Gene) : g.toJson.text? = some ("\"" ++ g.text ++ "\"") := by
  have hchars : g.toJson.chars = '"' :: g.chars ++ ['"'] := by
    rw [toJson, Json.ofText, Json.chars, Json.stringChars, Option.getD_some, text,
      String.toList_ofList, encode_chars]
  have htext : g.toJson.text = "\"" ++ g.text ++ "\"" := by
    rw [← String.toList_inj, Json.text, String.toList_ofList, hchars, text]
    simp
  have hprintable : g.toJson.isPrintable = true := rfl
  rw [Json.text?, if_pos hprintable, htext]

theorem toOption_ofText?_eq_some_iff {s : String} {g : Gene} :
    (ofText? s).toOption = some g ↔ g.text = s := by
  rw [← ofText?_eq_ok_iff]
  cases ofText? s with
  | error e => exact ⟨nofun, nofun⟩
  | ok h => rw [Except.toOption, Option.some_inj, Except.ok.injEq]

/-- Only a string is read as a gene, and only that of its digits. -/
theorem ofJson?_eq_some_iff {j : Json} {g : Gene} : ofJson? j = some g ↔ j = g.toJson := by
  rw [ofJson?, Option.bind_eq_bind, Option.bind_eq_some_iff, toJson, Json.ofText]
  constructor
  · rintro ⟨s, hstring, hread⟩
    rw [toOption_ofText?_eq_some_iff.mp hread]
    cases j with
    | string content => exact congrArg Json.string hstring
    | _ => cases hstring
  · rintro rfl
    exact ⟨g.text, rfl, toOption_ofText?_eq_some_iff.mpr rfl⟩

-- ---------------------------------------------------------------------------
-- The whole
-- ---------------------------------------------------------------------------

/--
**The text of a gene is exact**. A text is read as a gene exactly if it is the text of that gene;
those are the texts of at most 32 digits of ASCII. Of any other text the first character that is
no digit is named, and if there is none, the number of digits. A JSON value is read as a gene
exactly if it is the string of that text; written, it is the text between quotes, and this is
read back.
-/
theorem gene_text_exact :
    (∀ (s : String) (g : Gene), ofText? s = .ok g ↔ g.text = s) ∧
    (∀ s : String, (∃ g, ofText? s = .ok g) ↔
      s.length ≤ 32 ∧ ∀ c ∈ s.toList, isDigit c = true) ∧
    (∀ s m : String, (∃ e, ofText? s = .error e ∧ e.message = m) ↔ Refused s.toList m) ∧
    (∀ (j : Json) (g : Gene), ofJson? j = some g ↔ j = g.toJson) ∧
    (∀ g : Gene, g.toJson.text? = some ("\"" ++ g.text ++ "\"") ∧
      (Json.parse? ("\"" ++ g.text ++ "\"")).bind ofJson? = some g) := by
  refine ⟨fun s g => ofText?_eq_ok_iff, fun s => ?_, fun s m => exists_error_iff,
    fun j g => ofJson?_eq_some_iff, fun g => ⟨g.text?_toJson, ?_⟩⟩
  · rw [← String.length_toList]
    exact exists_ofChars?_iff
  · rw [Json.parse?_of_text? g.text?_toJson, Option.bind_some, ofJson?_eq_some_iff]

end AffineSwarm.Gene
