import AffineSwarm.Key.Secret
import AffineSwarm.Node.Config
import AffineSwarm.Proofs.Bytes.Hex
import Mathlib.Data.List.TakeWhile

/-!
# What configured secrets stand for

A text without the mark `hex:` stands for its own UTF-8 bytes; one with the mark stands for
the bytes that its digits spell, whatever blanks surround them (`StandsFor`). A text stands
for at most one byte string, and a marked text may stand for none. Reading gives the bytes
that a text stands for if there are any, and tells apart the two ways in which there are none:
the text stands for nothing at all, or for the empty string (`configured_secret_exact`).

So what counts is the bytes. Two nodes whose settings spell the same bytes have the same
secret and with it the same keys.
-/

namespace AffineSwarm

-- ---------------------------------------------------------------------------
-- Blanks around a text
-- ---------------------------------------------------------------------------

namespace Blank

theorem dropWhile_blanks {blanks rest : List Char} (hblanks : ∀ c ∈ blanks, isBlank c = true)
    (hrest : ∀ c ∈ rest, isBlank c = false) : (blanks ++ rest).dropWhile isBlank = rest := by
  rw [List.dropWhile_append_of_pos hblanks]
  cases rest with
  | nil => rfl
  | cons c rest => exact List.dropWhile_cons_of_neg (by simp [hrest c List.mem_cons_self])

theorem trim_surrounded {before cs after : List Char} (hbefore : ∀ c ∈ before, isBlank c = true)
    (hafter : ∀ c ∈ after, isBlank c = true) (hcs : ∀ c ∈ cs, isBlank c = false) :
    trim (before ++ cs ++ after) = cs := by
  cases cs with
  | nil =>
    have hblank : (before ++ [] ++ after).dropWhile isBlank = [] := by
      rw [List.append_nil, List.dropWhile_eq_nil_iff]
      intro c hc
      exact (List.mem_append.mp hc).elim (hbefore c) (hafter c)
    rw [trim, hblank]
    rfl
  | cons c rest =>
    have hfront : (before ++ (c :: rest) ++ after).dropWhile isBlank = c :: rest ++ after := by
      rw [List.append_assoc, List.dropWhile_append_of_pos hbefore, List.cons_append]
      exact List.dropWhile_cons_of_neg (by simp [hcs c List.mem_cons_self])
    have hback : (c :: rest ++ after).reverse.dropWhile isBlank = (c :: rest).reverse := by
      rw [List.reverse_append]
      exact dropWhile_blanks (fun d hd => hafter d (List.mem_reverse.mp hd))
        fun d hd => hcs d (List.mem_reverse.mp hd)
    rw [trim, hfront, hback, List.reverse_reverse]

/-- What is cut off the ends are blanks. -/
theorem exists_eq_trim (cs : List Char) :
    ∃ before after, (∀ c ∈ before, isBlank c = true) ∧ (∀ c ∈ after, isBlank c = true) ∧
      cs = before ++ trim cs ++ after := by
  have htaken : ∀ {cs : List Char}, ∀ c ∈ cs.takeWhile isBlank, isBlank c = true :=
    fun c hc => List.mem_takeWhile_imp hc
  refine ⟨cs.takeWhile isBlank, ((cs.dropWhile isBlank).reverse.takeWhile isBlank).reverse,
    htaken, fun c hc => htaken c (List.mem_reverse.mp hc), ?_⟩
  rw [trim, List.append_assoc, ← List.reverse_append, List.takeWhile_append_dropWhile,
    List.reverse_reverse, List.takeWhile_append_dropWhile]

end Blank

theorem Hex.Denotes.not_blank {c : Char} {n : Nat} (h : Hex.Denotes c n) :
    Blank.isBlank c = false := by
  have hnone : ∀ c ∈ Hex.lowerDigits ++ Hex.upperDigits, ¬ Blank.isBlank c = true :=
    List.any_eq_false.mp (by decide)
  rcases h with h | h
  · exact Bool.eq_false_iff.mpr (hnone c (List.mem_append_left _ (List.mem_of_getElem? h)))
  · exact Bool.eq_false_iff.mpr (hnone c (List.mem_append_right _ (List.mem_of_getElem? h)))

namespace Secret

-- ---------------------------------------------------------------------------
-- The meaning of a text
-- ---------------------------------------------------------------------------

/-- The mark of hexadecimal secrets. -/
def mark : List Char := "hex:".toList

/-- The bytes that a text stands for, possibly none. -/
inductive StandsFor (value : String) : List UInt8 → Prop where
  /-- A text without the mark stands for its UTF-8 bytes. -/
  | plain (unmarked : ¬ mark <+: value.toList) : StandsFor value value.toUTF8.data.toList
  /-- After the mark stand digits, with any blanks around them. -/
  | marked {before digits after : List Char} {bytes : List UInt8}
    (blank_before : ∀ c ∈ before, Blank.isBlank c = true)
    (blank_after : ∀ c ∈ after, Blank.isBlank c = true)
    (spells : Hex.Spells digits bytes)
    (value_eq : value.toList = mark ++ (before ++ digits ++ after)) : StandsFor value bytes

theorem hexDigits?_eq_some_iff {cs rest : List Char} :
    hexDigits? cs = some rest ↔ cs = mark ++ rest := by
  constructor
  · intro h
    rw [hexDigits?.eq_def] at h
    split at h
    · cases h
      rfl
    · cases h
  · rintro rfl
    rfl

theorem hexDigits?_eq_none_iff {cs : List Char} : hexDigits? cs = none ↔ ¬ mark <+: cs := by
  rw [← Option.not_isSome_iff_eq_none, Option.isSome_iff_exists]
  refine not_congr ⟨?_, ?_⟩
  · rintro ⟨rest, h⟩
    exact ⟨rest, (hexDigits?_eq_some_iff.mp h).symm⟩
  · rintro ⟨rest, h⟩
    exact ⟨rest, hexDigits?_eq_some_iff.mpr h.symm⟩

/-- A text gives the bytes that it stands for, and no text stands for two byte strings. -/
theorem bytesOf_eq_ok_iff {value : String} {bytes : List UInt8} :
    bytesOf value.toList = .ok bytes ↔ StandsFor value bytes := by
  cases hmark : hexDigits? value.toList with
  | none =>
    have hunmarked := hexDigits?_eq_none_iff.mp hmark
    have hread : bytesOf value.toList = .ok value.toUTF8.data.toList := by
      rw [bytesOf, hmark, ← Utf8.bytes_eq]
      rfl
    rw [hread]
    constructor
    · intro h
      cases h
      exact .plain hunmarked
    · intro h
      cases h with
      | plain => rfl
      | marked _ _ _ value_eq => exact absurd ⟨_, value_eq.symm⟩ hunmarked
  | some rest =>
    have hvalue := hexDigits?_eq_some_iff.mp hmark
    have hread : bytesOf value.toList = .ok bytes ↔
        Hex.decode (Utf8.encode (Blank.trim rest)) = .ok bytes := by
      rw [bytesOf, hmark]
      simp only
      split <;> simp_all
    rw [hread, Hex.decode_eq_ok_iff]
    constructor
    · intro hspells
      obtain ⟨before, after, hbefore, hafter, hrest⟩ := Blank.exists_eq_trim rest
      exact .marked hbefore hafter hspells (hrest ▸ hvalue)
    · intro h
      cases h with
      | plain unmarked => exact absurd ⟨_, hvalue.symm⟩ unmarked
      | @marked before digits after _ blank_before blank_after spells value_eq =>
        have hrest : rest = before ++ digits ++ after :=
          List.append_cancel_left (hvalue.symm.trans value_eq)
        have hdigits : ∀ c ∈ digits, Blank.isBlank c = false := by
          intro c hc
          obtain ⟨n, hdigit⟩ := spells.denotes c hc
          exact hdigit.not_blank
        rw [hrest, Blank.trim_surrounded blank_before blank_after hdigits]
        exact spells

theorem bytesOf_eq_error {value : String} {e : CryptoError}
    (h : bytesOf value.toList = .error e) : ∃ reason, e = .keyEncoding reason := by
  rw [bytesOf] at h
  split at h
  · split at h
    · cases h
    · cases h
      exact ⟨_, rfl⟩
  · cases h

-- ---------------------------------------------------------------------------
-- Reading
-- ---------------------------------------------------------------------------

theorem ofText?_eq_ok_iff {value : String} {bytes : List UInt8} :
    ofText? value = .ok bytes ↔ bytes ≠ [] ∧ StandsFor value bytes := by
  rw [← bytesOf_eq_ok_iff, ofText?]
  cases hread : bytesOf value.toList with
  | error e => simp
  | ok read =>
    cases read with
    | nil =>
      refine ⟨nofun, ?_⟩
      rintro ⟨hne, h⟩
      exact absurd (Except.ok.inj h).symm hne
    | cons b rest =>
      refine ⟨fun h => ⟨?_, h⟩, And.right⟩
      cases h
      exact List.cons_ne_nil b rest

theorem ofText?_eq_emptyKey_iff {value : String} :
    ofText? value = .error .emptyKey ↔ StandsFor value [] := by
  rw [← bytesOf_eq_ok_iff, ofText?]
  cases hread : bytesOf value.toList with
  | error e =>
    obtain ⟨reason, rfl⟩ := bytesOf_eq_error hread
    simp
  | ok read => cases read <;> simp

theorem ofText?_eq_keyEncoding_iff {value : String} :
    (∃ reason, ofText? value = .error (.keyEncoding reason)) ↔
      ∀ bytes, ¬ StandsFor value bytes := by
  constructor
  · rintro ⟨reason, h⟩ bytes hstands
    rw [ofText?, bytesOf_eq_ok_iff.mpr hstands] at h
    cases bytes <;> cases h
  · intro hnone
    cases hread : bytesOf value.toList with
    | error e =>
      obtain ⟨reason, rfl⟩ := bytesOf_eq_error hread
      exact ⟨reason, by rw [ofText?, hread]⟩
    | ok bytes => exact absurd (bytesOf_eq_ok_iff.mp hread) (hnone bytes)

end Secret

-- ---------------------------------------------------------------------------
-- Nodes
-- ---------------------------------------------------------------------------

/-- Bytes that are not empty have a key for every context. -/
theorem AuthKey.derive_eq_ok {bytes : List UInt8} (h : bytes ≠ []) (context : String) :
    ∃ key, derive context bytes = .ok key := by
  cases bytes with
  | nil => exact absurd rfl h
  | cons b rest => exact ⟨_, rfl⟩

theorem NodeConfig.secret_eq_ok_iff {c : NodeConfig} {bytes : List UInt8} :
    c.secret = .ok bytes ↔ bytes ≠ [] ∧ Secret.StandsFor c.sharedKey bytes := by
  rw [← Secret.ofText?_eq_ok_iff, secret]
  split <;> simp_all

/-- The key that the engine gets is the one for frames of the secret. -/
theorem NodeConfig.forFrames_of_engineConfig {c : NodeConfig} {e : EngineConfig}
    {bytes : List UInt8} (hsecret : c.secret = .ok bytes) (h : c.engineConfig = .ok e) :
    AuthKey.forFrames bytes = .ok e.key := by
  obtain ⟨_, bytes', key, -, hsecret', hkey, rfl⟩ := engineConfig_eq_ok_iff.mp h
  cases hsecret.symm.trans hsecret'
  exact hkey

-- ---------------------------------------------------------------------------
-- The whole
-- ---------------------------------------------------------------------------

/-- **What configured secrets stand for.** A text is read as the bytes that it stands for if
there are any; it gives no bytes because it stands for the empty string, or because it stands
for nothing. So after the mark the digits that are written for some bytes read back, with
capitals mixed in and blanks around them as one likes, and two nodes whose settings stand for
the same bytes have the same keys for frames and for ledgers. -/
theorem Secret.configured_secret_exact (value : String) :
    (∀ bytes, ofText? value = .ok bytes ↔ bytes ≠ [] ∧ StandsFor value bytes) ∧
    (ofText? value = .error .emptyKey ↔ StandsFor value []) ∧
    ((∃ reason, ofText? value = .error (.keyEncoding reason)) ↔
      ∀ bytes, ¬ StandsFor value bytes) ∧
    (∀ before digits after bytes, value.toList = mark ++ (before ++ digits ++ after) →
      (∀ c ∈ before ++ after, Blank.isBlank c = true) →
      digits.map Char.toLower = Hex.encode bytes → bytes ≠ [] → ofText? value = .ok bytes) ∧
    ∀ (c d : NodeConfig) (bytes : List UInt8), bytes ≠ [] →
      StandsFor c.sharedKey bytes → StandsFor d.sharedKey bytes →
      c.secret = .ok bytes ∧ d.secret = .ok bytes ∧
      ∃ frames ledger, AuthKey.forFrames bytes = .ok frames ∧
        AuthKey.forLedger bytes = .ok ledger ∧
        ∀ e, c.engineConfig = .ok e ∨ d.engineConfig = .ok e → e.key = frames := by
  refine ⟨fun _ => ofText?_eq_ok_iff, ofText?_eq_emptyKey_iff, ofText?_eq_keyEncoding_iff,
    fun before digits after bytes hvalue hblank hdigits hne => ?_,
    fun c d bytes hne hc hd => ?_⟩
  · obtain ⟨hbefore, hafter⟩ := List.forall_mem_append.mp hblank
    have hspells := Hex.spells_of_map_toLower hdigits
    exact ofText?_eq_ok_iff.mpr ⟨hne, .marked hbefore hafter hspells hvalue⟩
  · have hc := NodeConfig.secret_eq_ok_iff.mpr ⟨hne, hc⟩
    have hd := NodeConfig.secret_eq_ok_iff.mpr ⟨hne, hd⟩
    obtain ⟨frames, hframes⟩ := AuthKey.derive_eq_ok hne AuthKey.frameContext
    obtain ⟨ledger, hledger⟩ := AuthKey.derive_eq_ok hne AuthKey.ledgerContext
    refine ⟨hc, hd, frames, ledger, hframes, hledger, fun e he => ?_⟩
    have hkey : AuthKey.forFrames bytes = .ok e.key :=
      he.elim (NodeConfig.forFrames_of_engineConfig hc) (NodeConfig.forFrames_of_engineConfig hd)
    exact Except.ok.inj (hkey.symm.trans hframes)

/-- A node that is told its secret as it is, and one that is told it in hexadecimal. -/
theorem Secret.configured_secret_exact_of_two_spellings :
    let bytes : List UInt8 := [0x6a, 0x6b]
    let plain : NodeConfig := { NodeConfig.standard with sharedKey := "jk" }
    let marked : NodeConfig := { NodeConfig.standard with sharedKey := "hex:\t6A6b \n" }
    StandsFor plain.sharedKey bytes ∧ StandsFor marked.sharedKey bytes ∧
    ofText? marked.sharedKey = .ok bytes ∧ plain.secret = .ok bytes ∧
    ∃ frames, AuthKey.forFrames bytes = .ok frames ∧
      ∀ e, plain.engineConfig = .ok e ∨ marked.engineConfig = .ok e → e.key = frames := by
  intro bytes plain marked
  have hne : bytes ≠ [] := List.cons_ne_nil _ _
  have hvalue : marked.sharedKey.toList = mark ++ (['\t'] ++ "6A6b".toList ++ [' ', '\n']) := by
    decide
  have hblank : ∀ c ∈ ['\t'] ++ [' ', '\n'], Blank.isBlank c = true :=
    List.all_eq_true.mp (by decide)
  have hdigits : "6A6b".toList.map Char.toLower = Hex.encode bytes := by decide
  have hplain : StandsFor plain.sharedKey bytes :=
    .plain (by decide : ¬ mark <+: plain.sharedKey.toList)
  obtain ⟨hbefore, hafter⟩ := List.forall_mem_append.mp hblank
  have hmarked : StandsFor marked.sharedKey bytes :=
    .marked hbefore hafter (Hex.spells_of_map_toLower hdigits) hvalue
  obtain ⟨-, -, -, hread, hnodes⟩ := configured_secret_exact marked.sharedKey
  obtain ⟨hsecret, -, frames, -, hframes, -, hkeys⟩ :=
    hnodes plain marked bytes hne hplain hmarked
  exact ⟨hplain, hmarked, hread _ _ _ bytes hvalue hblank hdigits hne, hsecret, frames, hframes,
    hkeys⟩

end AffineSwarm
