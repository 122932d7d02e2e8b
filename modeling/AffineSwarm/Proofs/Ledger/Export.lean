import AffineSwarm.Ledger.Json
import AffineSwarm.Proofs.Bytes.Hex
import AffineSwarm.Proofs.Json.Record
import AffineSwarm.Proofs.Ledger.Chain

/-!
# Ledger records survive their export

A record is written as an object of six fields, each of which can be written, so the empty object
never stands for a record (`text?_toJson`). Reading the text gives the object back, whatever
characters stand in the texts, and reading the object gives the record back: numbers of 64 bits
fit into their fields, and the hexadecimal digits of a tag spell its 32 bytes (`ofJson?_toJson`).
Different records therefore have different texts. A ledger holds such records alone
(`tagged_of_isChain`) and is read back from the texts of all of them (`mapM_parse?_text`).
-/

namespace AffineSwarm.AuditRecord

/-- Both tags of the record have the length of a tag. -/
structure Tagged (r : AuditRecord) : Prop where
  length_previous : r.previous.length = 32
  length_tag : r.tag.length = 32

-- ---------------------------------------------------------------------------
-- Writing
-- ---------------------------------------------------------------------------

theorem isPrintable_toJson (r : AuditRecord) : r.toJson.isPrintable = true := by
  refine Json.isPrintable_ofFields ?_
  simp only [List.forall_mem_cons, Json.isPrintable_ofNat, Json.isPrintable_ofInt,
    Json.isPrintable_ofText, List.not_mem_nil, false_implies, implies_true, and_self]

theorem text?_toJson (r : AuditRecord) : r.toJson.text? = some r.text := by
  have htext : r.toJson.text? = some r.toJson.text := if_pos r.isPrintable_toJson
  rw [text, htext, Option.getD_some]

-- ---------------------------------------------------------------------------
-- Reading
-- ---------------------------------------------------------------------------

/-- A tag is read back from its hexadecimal digits. -/
theorem tag?_text {bytes : List UInt8} (h : bytes.length = 32) :
    tag? (.ofText (Hex.text bytes)) = some bytes := by
  have hdecode : Hex.decode (Utf8.bytes (Hex.text bytes)) = .ok bytes := by
    rw [Utf8.bytes, Hex.text, String.toList_ofList]
    exact Hex.decode_eq_ok_iff.mpr (Hex.spells_encode bytes)
  simp only [tag?, Json.string?_ofText, Option.bind_eq_bind, Option.bind_some, hdecode,
    Except.toOption]
  exact if_pos h

theorem fields?_toJson (r : AuditRecord) : r.toJson.fields? fieldNames =
    some [some (.ofNat r.index.toNat), some (.ofInt r.timestamp.toInt),
      some (.ofText (Hex.text r.previous)), some (.ofText (Hex.text r.tag)),
      some (.ofText r.eventType), some (.ofText r.payload)] := by
  rw [toJson]
  exact Json.fields?_ofFields (by simp)

theorem ofJson?_toJson {r : AuditRecord} (h : r.Tagged) : ofJson? r.toJson = some r := by
  have hindex : Json.unsigned? 64 (.ofNat r.index.toNat) = some r.index.toNat :=
    Json.unsigned?_ofNat r.index.toNat_lt
  have htimestamp : Json.signed? 64 (.ofInt r.timestamp.toInt) = some r.timestamp.toInt :=
    Json.signed?_ofInt r.timestamp.le_toInt r.timestamp.toInt_lt
  simp only [ofJson?, fields?_toJson, Reader.required, Option.bind_eq_bind, Option.bind_some,
    hindex, htimestamp, tag?_text h.length_previous, tag?_text h.length_tag, Json.string?_ofText,
    UInt64.ofNat_toNat, Int64.ofInt_toInt]
  rfl

theorem parse?_text {r : AuditRecord} (h : r.Tagged) : parse? r.text = some r := by
  rw [parse?, Json.parse?_of_text? r.text?_toJson, Option.bind_eq_bind, Option.bind_some,
    ofJson?_toJson h]

/-- The empty object stands for no record. -/
theorem parse?_noText : parse? noText = none := by
  have hread : Json.parse? noText = some (.object []) := Json.parse?_of_text? rfl
  rw [parse?, hread]
  rfl

/-- The records of a chain have tags of that length. -/
theorem tagged_of_isChain {hash : KeyedHash} {records : List AuditRecord}
    (h : Ledger.IsChain hash records) : ∀ r ∈ records, r.Tagged := by
  intro r hr
  obtain ⟨place, hplace⟩ := List.mem_iff_getElem?.mp hr
  have htag : r.tag.length = tagLength := by
    rw [(h place r hplace).tag_hashed]
    exact hash.length_tag _
  exact ⟨h.length_previous hplace, htag⟩

/-- A ledger is read back from the texts of its records. -/
theorem mapM_parse?_text {records : List AuditRecord} (tagged : ∀ r ∈ records, r.Tagged) :
    (records.map text).mapM parse? = some records := by
  induction records with
  | nil => rfl
  | cons r records ih =>
    obtain ⟨hr, hrecords⟩ := List.forall_mem_cons.mp tagged
    rw [List.map_cons, List.mapM_cons, parse?_text hr, ih hrecords]
    rfl

-- ---------------------------------------------------------------------------
-- The whole
-- ---------------------------------------------------------------------------

/--
**Records survive their export**. A record of which both tags have their length is written as
the text of its object, never as the empty object; the text is read as the record; a payload that
is itself the text of a JSON value is still that after being quoted and read back; and only the
record itself has that text.
-/
theorem records_survive_export (r s : AuditRecord) (hr : r.Tagged) (hs : s.Tagged) :
    r.toJson.text? = some r.text ∧ r.text ≠ "\x7b\x7d" ∧ parse? r.text = some r ∧
    (∀ j, j.text? = some r.payload →
      (parse? r.text).bind (fun read => Json.parse? read.payload) = some j) ∧
    (r.text = s.text → r = s) := by
  have hread := parse?_text hr
  refine ⟨r.text?_toJson, ?_, hread, ?_, ?_⟩
  · intro htext
    rw [htext] at hread
    exact absurd hread (by rw [← noText, parse?_noText]; exact nofun)
  · intro j hj
    rw [hread, Option.bind_some]
    exact Json.parse?_of_text? hj
  · intro htext
    rw [htext, parse?_text hs] at hread
    exact (Option.some.inj hread).symm

/-- Numbers at their limits, and a payload that is JSON full of what has to be escaped: it differs
from another in one character that does not show. -/
theorem records_survive_export_of_nested :
    let inner := Json.ofFields [("\x00\"\\\n/", .ofText "\x7b\"é\\u0041\":\x7f😀\x1f\x7d")]
    let r : AuditRecord := ⟨UInt64.ofNat 18446744073709551615, Int64.minValue,
      List.replicate 32 0xff, List.replicate 32 0x0a, "\t\u2028", inner.text⟩
    let s : AuditRecord := { r with payload := inner.text ++ "\u200b" }
    r.Tagged ∧ s.Tagged ∧ parse? r.text = some r ∧
    (parse? r.text).bind (fun read => Json.parse? read.payload) = some inner ∧
    r.text ≠ s.text := by
  intro inner r s
  have hr : r.Tagged := ⟨rfl, rfl⟩
  have hs : s.Tagged := ⟨rfl, rfl⟩
  obtain ⟨-, -, hread, hnested, hinj⟩ := records_survive_export r s hr hs
  have hinner : inner.text? = some r.payload :=
    if_pos (Json.isPrintable_ofFields (List.forall_mem_singleton.mpr rfl))
  have hpayload : r.payload ≠ s.payload := by
    intro h
    have hlength : inner.text.length = (inner.text ++ "\u200b").length :=
      congrArg String.length h
    rw [String.length_append] at hlength
    exact absurd hlength (Nat.ne_of_lt (Nat.lt_add_of_pos_right (by decide)))
  exact ⟨hr, hs, hread, hnested inner hinner, fun htext => hpayload (congrArg _ (hinj htext))⟩

end AffineSwarm.AuditRecord
