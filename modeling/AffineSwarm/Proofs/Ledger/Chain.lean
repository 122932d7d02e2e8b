import AffineSwarm.Ledger.Basic
import Mathlib.Data.List.Nodup
import Mathlib.Data.Set.Function

/-!
# The ledger as a chain

What a ledger records is a chain: each record refers to the one before by its tag, and its
own tag is taken over that reference and all it says (`Links`). Appending only adds to the
chain (`IsChain.append`), until the ledger is full.

So the tag of the last record stands for the whole ledger. The bytes that a tag is taken over
tell its record: all fields but the last two have a fixed width, and the event type comes with
its length (`eq_of_linkBytes`). If no two of the byte strings that were hashed have the same
tag, then records with the same tag have the same index and refer to records with the same
tag, and so on back to the first one (`IsChain.take_eq_take`).

## Results

* `records_eq_take` — what a ledger has recorded after any events.
* `IsChain.record` — what it has recorded is a chain.
* `IsChain.take_eq_take` — the tag of a record determines the chain up to it.
* `ledger_is_tamper_evident` — the ledger as a whole.
-/

namespace AffineSwarm

-- ---------------------------------------------------------------------------
-- Texts
-- ---------------------------------------------------------------------------

theorem Utf8.bytes_injective {text text' : String} (h : bytes text = bytes text') :
    text = text' := by
  have hencoded : text.toList.utf8Encode = text'.toList.utf8Encode :=
    congrArg List.toByteArray h
  rw [← String.toByteArray_ofList, ← String.toByteArray_ofList, String.toByteArray_inj,
    String.ofList_toList, String.ofList_toList] at hencoded
  exact hencoded

namespace Ledger

open BigEndian (ofNat)

-- ---------------------------------------------------------------------------
-- Events and chains
-- ---------------------------------------------------------------------------

/-- An event that is to be recorded, with the time at which that is tried. -/
structure Entry where
  time : WallTime
  eventType : String
  payload : String
  deriving DecidableEq, Repr

/-- The length of the event type fits the field that is kept for it. -/
def Entry.IsShort (e : Entry) : Prop := (Utf8.bytes e.eventType).length < UInt32.size

instance (e : Entry) : Decidable e.IsShort := Nat.decLt _ _

/-- Try to record an event: what the ledger answers, and the ledger after that. -/
def submit (l : Ledger) (e : Entry) : Except AuditError Unit × Ledger :=
  match l.append e.time e.eventType e.payload with
  | .ok l => (.ok (), l)
  | .error error => (.error error, l)

/-- Try to record events one after the other. -/
def record (l : Ledger) (entries : List Entry) : Ledger :=
  entries.foldl (fun l e => (l.submit e).2) l

/-- The event of a record. -/
def entryOf (r : AuditRecord) : Entry := ⟨r.timestamp, r.eventType, r.payload⟩

/-- The bytes that were hashed for a record. -/
def hashed (r : AuditRecord) : List UInt8 :=
  linkBytes r.previous r.index r.timestamp r.eventType r.payload

/-- A record that stands in a chain at a place: it has that place as its index, refers to the
record before it by the tag of that, or to nothing, and its tag is the hash of the reference
followed by index, time, length of the event type, event type, and payload. -/
structure Links (hash : KeyedHash) (records : List AuditRecord) (place : Nat)
    (r : AuditRecord) : Prop where
  index_eq : r.index.toNat = place
  first : place = 0 → r.previous = List.replicate tagLength 0
  linked : ∀ before, 0 < place → records[place - 1]? = some before → r.previous = before.tag
  tag_eq : r.tag = hash.tag (r.previous ++ ofNat 8 place ++ ofNat 8 r.timestamp.toUInt64.toNat ++
    ofNat 4 (Utf8.bytes r.eventType).length ++ Utf8.bytes r.eventType ++ Utf8.bytes r.payload)

/-- Records each of which stands in its place. -/
def IsChain (hash : KeyedHash) (records : List AuditRecord) : Prop :=
  ∀ place r, records[place]? = some r → Links hash records place r

variable {hash : KeyedHash} {records records' : List AuditRecord} {l : Ledger} {e : Entry}

-- ---------------------------------------------------------------------------
-- What is recorded
-- ---------------------------------------------------------------------------

/-- What trying to record an event does: a full ledger refuses it and stays as it is, any
other puts its record last. -/
theorem submit_cases (l : Ledger) (e : Entry) :
    (l.capacity ≤ l.records.length ∧ l.submit e = (.error (.ledgerFull l.capacity), l)) ∨
    (l.records.length < l.capacity ∧ l.submit e = (.ok (),
      { l with records := l.records ++ [l.nextRecord e.time e.eventType e.payload] })) := by
  rw [submit, append]
  by_cases hfull : l.capacity ≤ l.records.length
  · rw [if_pos hfull]
    exact .inl ⟨hfull, rfl⟩
  · rw [if_neg hfull]
    exact .inr ⟨Nat.lt_of_not_le hfull, rfl⟩

theorem hash_submit (l : Ledger) (e : Entry) : (l.submit e).2.hash = l.hash := by
  rcases l.submit_cases e with ⟨-, h⟩ | ⟨-, h⟩ <;> rw [h]

theorem capacity_submit (l : Ledger) (e : Entry) : (l.submit e).2.capacity = l.capacity := by
  rcases l.submit_cases e with ⟨-, h⟩ | ⟨-, h⟩ <;> rw [h]

theorem capacity_record (l : Ledger) (entries : List Entry) :
    (l.record entries).capacity = l.capacity := by
  induction entries generalizing l with
  | nil => rfl
  | cons e rest ih => exact (ih _).trans (l.capacity_submit e)

/-- Recording adds records to a ledger: of the first events, as many as it has room for. -/
theorem record_append (l : Ledger) (entries : List Entry) :
    ∃ new, l.record entries = { l with records := l.records ++ new } ∧
      new.map entryOf = entries.take (l.capacity - l.records.length) := by
  induction entries generalizing l with
  | nil =>
    have hsame : { l with records := l.records ++ [] } = l := by rw [List.append_nil]
    exact ⟨[], hsame.symm, List.take_nil.symm⟩
  | cons e rest ih =>
    obtain ⟨new, hrecord, hnew⟩ := ih (l.submit e).2
    rw [record, List.foldl_cons, ← record, hrecord]
    rcases l.submit_cases e with ⟨hfull, h⟩ | ⟨hroom, h⟩
    · have hnone : l.capacity - l.records.length = 0 := by omega
      rw [h, hnone, List.take_zero] at hnew
      rw [h, hnone]
      exact ⟨new, rfl, hnew⟩
    · have hsome : l.capacity - l.records.length =
          l.capacity - (l.records.length + 1) + 1 := by omega
      rw [h, List.length_append, List.length_singleton] at hnew
      rw [h, hsome, List.take_succ_cons]
      refine ⟨l.nextRecord e.time e.eventType e.payload :: new, ?_, congrArg (e :: ·) hnew⟩
      rw [List.append_assoc]
      rfl

/-- A ledger has recorded the first events, as many as it has room for. -/
theorem records_eq_take (l : Ledger) (entries : List Entry)
    (hroom : l.records.length ≤ l.capacity) :
    (l.record entries).records.map entryOf =
      (l.records.map entryOf ++ entries).take l.capacity := by
  obtain ⟨new, hrecord, hnew⟩ := l.record_append entries
  have hall : (l.records.map entryOf).take l.capacity = l.records.map entryOf :=
    List.take_of_length_le (by rwa [List.length_map])
  rw [hrecord, List.map_append, hnew, List.take_append, hall, List.length_map]

/-- Nothing that was recorded is changed or removed. -/
theorem records_prefix (l : Ledger) (entries : List Entry) :
    l.records <+: (l.record entries).records := by
  obtain ⟨new, hrecord, -⟩ := l.record_append entries
  rw [hrecord]
  exact List.prefix_append ..

-- ---------------------------------------------------------------------------
-- What is recorded is a chain
-- ---------------------------------------------------------------------------

/-- A record keeps its place when others are added. -/
theorem Links.append {place : Nat} {r : AuditRecord} (h : Links hash records place r)
    (hlt : place < records.length) (more : List AuditRecord) :
    Links hash (records ++ more) place r where
  index_eq := h.index_eq
  first := h.first
  linked before hpos hbefore := by
    rw [List.getElem?_append_left (by omega)] at hbefore
    exact h.linked before hpos hbefore
  tag_eq := h.tag_eq

/-- The record that comes next stands at the end of a chain. -/
theorem links_nextRecord (hlength : l.records.length < UInt64.size) (e : Entry)
    (more : List AuditRecord) :
    Links l.hash (l.records ++ more) l.records.length
      (l.nextRecord e.time e.eventType e.payload) where
  index_eq := by
    rw [nextRecord, UInt64.toNat_ofNat', Nat.mod_eq_of_lt hlength]
  first hempty := by
    rw [nextRecord, lastTag, List.eq_nil_of_length_eq_zero hempty]
    rfl
  linked before hpos hbefore := by
    rw [List.getElem?_append_left (by omega), ← List.getLast?_eq_getElem?] at hbefore
    rw [nextRecord, lastTag, hbefore]
  tag_eq := by
    rw [nextRecord, linkBytes, UInt64.toNat_ofNat', Nat.mod_eq_of_lt hlength]

theorem IsChain.submit (h : IsChain l.hash l.records) (hcapacity : l.capacity < UInt64.size)
    (e : Entry) : IsChain l.hash (l.submit e).2.records := by
  rcases l.submit_cases e with ⟨-, heq⟩ | ⟨hlt, heq⟩
  · rwa [heq]
  · rw [heq]
    intro place r hr
    have hplace := (List.getElem?_eq_some_iff.mp hr).1
    rw [List.length_append, List.length_singleton] at hplace
    rcases Nat.lt_succ_iff_lt_or_eq.mp hplace with hold | rfl
    · rw [List.getElem?_append_left hold] at hr
      exact (h place r hr).append hold _
    · rw [List.getElem?_concat_length] at hr
      cases hr
      exact links_nextRecord (Nat.lt_trans hlt hcapacity) e _

/-- What a ledger has recorded is a chain, by induction on the events. -/
theorem IsChain.record (h : IsChain l.hash l.records) (hcapacity : l.capacity < UInt64.size)
    (entries : List Entry) : IsChain l.hash (l.record entries).records := by
  induction entries generalizing l with
  | nil => exact h
  | cons e rest ih =>
    have hnext := h.submit hcapacity e
    rw [← l.hash_submit e] at hnext
    rw [← l.hash_submit e]
    exact ih hnext (by rwa [capacity_submit])

-- ---------------------------------------------------------------------------
-- Tags tell records
-- ---------------------------------------------------------------------------

theorem ofNat_injective (width : Nat) {n n' : Nat} (h : n < BigEndian.count width)
    (h' : n' < BigEndian.count width) (heq : ofNat width n = ofNat width n') : n = n' := by
  have hread := congrArg BigEndian.toNat heq
  rwa [BigEndian.toNat_ofNat, BigEndian.toNat_ofNat, Nat.mod_eq_of_lt h, Nat.mod_eq_of_lt h']
    at hread

/-- The bytes that a tag is taken over tell what they were made of. Moving a byte from the
event type to the payload changes the length that stands before them. -/
theorem eq_of_linkBytes {previous previous' : List UInt8} {index index' : UInt64}
    (e e' : Entry) (hprevious : previous.length = previous'.length) (hshort : e.IsShort)
    (hshort' : e'.IsShort)
    (h : linkBytes previous index e.time e.eventType e.payload =
      linkBytes previous' index' e'.time e'.eventType e'.payload) :
    previous = previous' ∧ index = index' ∧ e = e' := by
  simp only [linkBytes, List.append_assoc] at h
  have hwidth : ∀ width n n', (ofNat width n).length = (ofNat width n').length := by
    intro width n n'
    rw [BigEndian.length_ofNat, BigEndian.length_ofNat]
  obtain ⟨hprevious, h⟩ := List.append_inj h hprevious
  obtain ⟨hindex, h⟩ := List.append_inj h (hwidth ..)
  obtain ⟨htime, h⟩ := List.append_inj h (hwidth ..)
  obtain ⟨hlength, h⟩ := List.append_inj h (hwidth ..)
  have hlength : (Utf8.bytes e.eventType).length = (Utf8.bytes e'.eventType).length :=
    ofNat_injective 4 hshort hshort' hlength
  obtain ⟨htype, hpayload⟩ := List.append_inj h hlength
  have hindex : index = index' :=
    UInt64.toNat_inj.mp (ofNat_injective 8 index.toNat_lt index'.toNat_lt hindex)
  have htime : e.time = e'.time := by
    have hword : e.time.toUInt64 = e'.time.toUInt64 :=
      UInt64.toNat_inj.mp (ofNat_injective 8 (UInt64.toNat_lt _) (UInt64.toNat_lt _) htime)
    rw [← e.time.toInt64_toUInt64, hword, Int64.toInt64_toUInt64]
  refine ⟨hprevious, hindex, ?_⟩
  obtain ⟨time, eventType, payload⟩ := e
  obtain ⟨time', eventType', payload'⟩ := e'
  cases htime
  cases Utf8.bytes_injective htype
  cases Utf8.bytes_injective hpayload
  rfl

theorem Links.tag_hashed {place : Nat} {r : AuditRecord} (h : Links hash records place r) :
    r.tag = hash.tag (hashed r) := by
  rw [hashed, linkBytes, h.index_eq]
  exact h.tag_eq

/-- The reference of a record is as long as a tag. -/
theorem IsChain.length_previous (h : IsChain hash records) {place : Nat} {r : AuditRecord}
    (hr : records[place]? = some r) : r.previous.length = tagLength := by
  obtain _ | place := place
  · rw [(h 0 r hr).first rfl, List.length_replicate]
  · have hlt := (List.getElem?_eq_some_iff.mp hr).1
    have hbefore : records[place]? = some records[place] := List.getElem?_eq_getElem (by omega)
    rw [(h _ r hr).linked _ (Nat.succ_pos _) hbefore, (h _ _ hbefore).tag_hashed]
    exact hash.length_tag _

/-- Of the byte strings that were hashed for two ledgers, no two have the same tag. -/
def CollisionFree (hash : KeyedHash) (records records' : List AuditRecord) : Prop :=
  Set.InjOn hash.tag {bytes | bytes ∈ records.map hashed ++ records'.map hashed}

/-- Records of two chains that have the same tag are equal. -/
theorem IsChain.eq_of_tag_eq (h : IsChain hash records) (h' : IsChain hash records')
    (hshort : ∀ r ∈ records, (entryOf r).IsShort) (hshort' : ∀ r ∈ records', (entryOf r).IsShort)
    (hfree : CollisionFree hash records records') {place place' : Nat} {r r' : AuditRecord}
    (hr : records[place]? = some r) (hr' : records'[place']? = some r') (htag : r.tag = r'.tag) :
    r = r' := by
  have hmem := List.mem_of_getElem? hr
  have hmem' := List.mem_of_getElem? hr'
  have hbytes : hashed r = hashed r' := by
    refine hfree ?_ ?_ ?_
    · exact List.mem_append_left _ (List.mem_map_of_mem hmem)
    · exact List.mem_append_right _ (List.mem_map_of_mem hmem')
    · rw [← (h _ _ hr).tag_hashed, ← (h' _ _ hr').tag_hashed, htag]
  have hlength : r.previous.length = r'.previous.length := by
    rw [h.length_previous hr, h'.length_previous hr']
  obtain ⟨hprevious, hindex, hentry⟩ :=
    eq_of_linkBytes (entryOf r) (entryOf r') hlength (hshort r hmem) (hshort' r' hmem') hbytes
  obtain ⟨index, timestamp, previous, tag, eventType, payload⟩ := r
  obtain ⟨index', timestamp', previous', tag', eventType', payload'⟩ := r'
  cases hprevious
  cases hindex
  cases hentry
  cases htag
  rfl

/-- **The tag of a record stands for all records up to it.** By induction on the place of the
record: equal records have equal indices and refer to records with equal tags. -/
theorem IsChain.take_eq_take (h : IsChain hash records) (h' : IsChain hash records')
    (hshort : ∀ r ∈ records, (entryOf r).IsShort) (hshort' : ∀ r ∈ records', (entryOf r).IsShort)
    (hfree : CollisionFree hash records records') {place place' : Nat} {r r' : AuditRecord}
    (hr : records[place]? = some r) (hr' : records'[place']? = some r') (htag : r.tag = r'.tag) :
    place = place' ∧ records.take (place + 1) = records'.take (place' + 1) := by
  induction place generalizing place' r r' with
  | zero =>
    cases h.eq_of_tag_eq h' hshort hshort' hfree hr hr' htag
    have hplace : 0 = place' := (h _ _ hr).index_eq.symm.trans (h' _ _ hr').index_eq
    cases hplace
    refine ⟨rfl, ?_⟩
    rw [List.take_add_one, List.take_add_one, hr, hr']
    rfl
  | succ place ih =>
    cases h.eq_of_tag_eq h' hshort hshort' hfree hr hr' htag
    have hplace : place + 1 = place' := (h _ _ hr).index_eq.symm.trans (h' _ _ hr').index_eq
    cases hplace
    have hlt := (List.getElem?_eq_some_iff.mp hr).1
    have hlt' := (List.getElem?_eq_some_iff.mp hr').1
    have hbefore : records[place]? = some records[place] := List.getElem?_eq_getElem (by omega)
    have hbefore' : records'[place]? = some records'[place] := List.getElem?_eq_getElem (by omega)
    have htags : records[place].tag = records'[place].tag := by
      rw [← (h _ _ hr).linked _ (Nat.succ_pos _) hbefore,
        ← (h' _ _ hr').linked _ (Nat.succ_pos _) hbefore']
    obtain ⟨-, htake⟩ := ih hbefore hbefore' htags
    refine ⟨rfl, ?_⟩
    rw [List.take_add_one, htake, hr, ← hr', ← List.take_add_one]

-- ---------------------------------------------------------------------------
-- The ledger
-- ---------------------------------------------------------------------------

/-- **The ledger is a tamper-evident chain.** Whatever events are brought to a ledger:

* it has recorded the first of them, in order and as many as it has room for, and what it has
  recorded stays;
* its records are a chain;
* it refuses an event exactly if it has as many records as it has room for, and then stays
  as it is;
* if no two of the byte strings that were hashed have the same tag, and no event type is too
  long for its length to be written down, then another ledger under the same key whose last
  record has the same tag has the same records. -/
theorem ledger_is_tamper_evident (hash : KeyedHash) (capacity : UInt64) (entries : List Entry) :
    let l := (empty hash capacity.toNat).record entries
    (l.records.length = min capacity.toNat entries.length ∧
      l.records.map entryOf = entries.take capacity.toNat ∧
      ∀ more, l.records <+: (l.record more).records) ∧
    IsChain hash l.records ∧
    (∀ e, ((l.submit e).1 = .error (.ledgerFull capacity.toNat) ↔
        l.records.length = capacity.toNat) ∧
      ((l.submit e).1 = .ok () ∨ (l.submit e).1 = .error (.ledgerFull capacity.toNat)) ∧
      ∀ error, (l.submit e).1 = .error error → (l.submit e).2 = l) ∧
    ∀ (capacity' : UInt64) (entries' : List Entry),
      let l' := (empty hash capacity'.toNat).record entries'
      (∀ e ∈ entries, e.IsShort) → (∀ e ∈ entries', e.IsShort) →
      CollisionFree hash l.records l'.records →
      ∀ r r', l.records.getLast? = some r → l'.records.getLast? = some r' → r.tag = r'.tag →
        l.records = l'.records := by
  intro l
  have hrecorded : ∀ (capacity : UInt64) (entries : List Entry),
      ((empty hash capacity.toNat).record entries).records.map entryOf =
        entries.take capacity.toNat :=
    fun capacity entries => records_eq_take _ entries (Nat.zero_le _)
  have hchain : ∀ (capacity : UInt64) (entries : List Entry),
      IsChain hash ((empty hash capacity.toNat).record entries).records :=
    fun capacity entries =>
      IsChain.record (l := empty hash capacity.toNat) nofun capacity.toNat_lt_size entries
  have hlength : l.records.length = min capacity.toNat entries.length := by
    rw [← List.length_map entryOf, hrecorded, List.length_take]
  have hcapacity : l.capacity = capacity.toNat := capacity_record ..
  have hshort : ∀ (capacity : UInt64) (entries : List Entry), (∀ e ∈ entries, e.IsShort) →
      ∀ r ∈ ((empty hash capacity.toNat).record entries).records, (entryOf r).IsShort := by
    intro capacity entries hentries r hr
    refine hentries _ (List.mem_of_mem_take (i := capacity.toNat) ?_)
    rw [← hrecorded]
    exact List.mem_map_of_mem hr
  refine ⟨⟨hlength, hrecorded capacity entries, l.records_prefix⟩, hchain capacity entries,
    fun e => ?_, ?_⟩
  · rcases l.submit_cases e with ⟨hfull, h⟩ | ⟨hroom, h⟩
    · rw [h, ← hcapacity]
      refine ⟨⟨fun _ => ?_, fun _ => rfl⟩, .inr rfl, fun _ _ => rfl⟩
      omega
    · rw [h, ← hcapacity]
      refine ⟨⟨nofun, fun hfull => ?_⟩, .inl rfl, nofun⟩
      omega
  · intro capacity' entries' l' hentries hentries' hfree r r' hr hr' htag
    rw [List.getLast?_eq_getElem?] at hr hr'
    obtain ⟨-, htake⟩ := (hchain capacity entries).take_eq_take (hchain capacity' entries')
      (hshort _ _ hentries) (hshort _ _ hentries') hfree hr hr' htag
    have hall : ∀ records : List AuditRecord, records.take (records.length - 1 + 1) = records :=
      fun records => List.take_of_length_le (by omega)
    exact (hall _).symm.trans (htake.trans (hall _))

/-- A ledger of two records that has refused a third event has the records of a larger ledger
that was never asked to record it, as the last tags are equal. The second event differs from
the first by one byte that has moved from the event type to the payload. -/
theorem ledger_is_tamper_evident_of_two :
    let hash := (AuthKey.mk (List.replicate 32 7)).keyedHash
    let l := (empty hash 2).record [⟨5, "xy", "z"⟩, ⟨5, "x", "yz"⟩, ⟨6, "x", ""⟩]
    let l' := (empty hash 3).record [⟨5, "xy", "z"⟩, ⟨5, "x", "yz"⟩]
    l.records.length = 2 ∧ CollisionFree hash l.records l'.records ∧ l.records = l'.records := by
  intro hash l l'
  have hbytes : l'.records.map hashed = l.records.map hashed := rfl
  have hdistinct : ((l.records.map hashed).map fun bytes => (hash.tag bytes).head?).Nodup := by
    decide +kernel
  have hfree : CollisionFree hash l.records l'.records := by
    rw [CollisionFree, hbytes]
    intro bytes hmem bytes' hmem' htag
    refine List.inj_on_of_nodup_map hdistinct ?_ ?_ (congrArg List.head? htag)
    · exact (List.mem_append.mp hmem).elim id id
    · exact (List.mem_append.mp hmem').elim id id
  obtain ⟨⟨hlength, -⟩, -, -, hsame⟩ :=
    ledger_is_tamper_evident hash 2 [⟨5, "xy", "z"⟩, ⟨5, "x", "yz"⟩, ⟨6, "x", ""⟩]
  exact ⟨hlength, hfree, hsame 3 [⟨5, "xy", "z"⟩, ⟨5, "x", "yz"⟩] (by decide) (by decide) hfree
    _ _ rfl rfl rfl⟩

end Ledger

end AffineSwarm
