import AffineSwarm.Proofs.Engine.Introduction
import Mathlib.Data.List.Nodup

/-!
# The record of a neighbor table

What a neighbor table holds is a matter of record. Of the history of a run one can tell
when a node was entered last and not evicted since (`EnteredAt`), and where it was heard
from last (`lastAddress?`). The table has exactly the nodes that stand so, in the order in
which they were entered, each with the address where it was heard from last (`Recorded`).

Every access keeps the record (`Recorded.perform`): an upsert adds a node at the end or
changes an address, eviction removes nodes and strikes them from the record, and whatever
else touches an entry changes neither its node nor its address.

## Results

* `enteredAt_snoc`, `lastAddress?_snoc` — the record after one more step.
* `Recorded.insert`, `Recorded.refresh`, `Recorded.evict` — the accesses that change it.
* `Recorded.perform` — every access keeps the record.
-/

namespace AffineSwarm.Engine

open Neighbor (Table)

-- ---------------------------------------------------------------------------
-- The record
-- ---------------------------------------------------------------------------

/-- The step evicts a node from the table. -/
def Label.evicts (id : NodeId) : Label → Prop
  | .performed _ ⟨.evict _ _, evicted⟩ => ∃ n ∈ evicted, n.id = id
  | _ => False

/-- The address that the step gives for a node, if it records one. -/
def Label.locates? (id : NodeId) : Label → Option Address
  | .performed _ ⟨.upsert id' address _, _⟩ => if id' = id then some address else none
  | _ => none

/-- A node was entered into the table by the step at a place in the history, and was
neither entered nor evicted since. -/
structure EnteredAt (labels : List Label) (id : NodeId) (place : Nat) : Prop where
  entered : ∃ label, labels[place]? = some label ∧ label.introduces? id ≠ none
  since : ∀ later label, place < later → labels[later]? = some label →
    label.introduces? id = none ∧ ¬ label.evicts id

/-- One node was entered before another, and both were not evicted since. -/
def EnteredBefore (labels : List Label) (id id' : NodeId) : Prop :=
  ∃ place place', EnteredAt labels id place ∧ EnteredAt labels id' place' ∧ place < place'

/-- The address that was recorded for a node last. -/
def lastAddress? (labels : List Label) (id : NodeId) : Option Address :=
  (labels.filterMap (·.locates? id)).getLast?

theorem lastAddress?_snoc (labels : List Label) (label : Label) (id : NodeId) :
    lastAddress? (labels ++ [label]) id = (label.locates? id).or (lastAddress? labels id) := by
  rw [lastAddress?, filterMap_snoc, lastAddress?]
  cases label.locates? id with
  | none => rw [Option.toList_none, List.append_nil, Option.none_or]
  | some address => rw [Option.toList_some, List.getLast?_concat, Option.some_or]

theorem EnteredAt.lt_length {labels : List Label} {id : NodeId} {place : Nat}
    (h : EnteredAt labels id place) : place < labels.length := by
  obtain ⟨label, hlabel, -⟩ := h.entered
  exact (List.getElem?_eq_some_iff.mp hlabel).1

/-- There is one place at most at which a node stands entered. -/
theorem EnteredAt.unique {labels : List Label} {id : NodeId} {place place' : Nat}
    (h : EnteredAt labels id place) (h' : EnteredAt labels id place') : place = place' := by
  obtain ⟨label, hlabel, hintroduces⟩ := h.entered
  obtain ⟨label', hlabel', hintroduces'⟩ := h'.entered
  rcases Nat.lt_trichotomy place place' with hlt | heq | hgt
  · exact absurd (h.since _ _ hlt hlabel').1 hintroduces'
  · exact heq
  · exact absurd (h'.since _ _ hgt hlabel).1 hintroduces

/-- After one more step a node stands entered by that step, or as before if the step did
not touch it. -/
theorem enteredAt_snoc {labels : List Label} {label : Label} {id : NodeId} {place : Nat} :
    EnteredAt (labels ++ [label]) id place ↔
      (place = labels.length ∧ label.introduces? id ≠ none) ∨
      (EnteredAt labels id place ∧ label.introduces? id = none ∧ ¬ label.evicts id) := by
  have hlast : (labels ++ [label])[labels.length]? = some label := List.getElem?_concat_length
  have hbefore : ∀ {k}, k < labels.length → (labels ++ [label])[k]? = labels[k]? :=
    fun hk => List.getElem?_append_left hk
  constructor
  · rintro ⟨⟨l, hl, hintroduces⟩, hsince⟩
    have hlt : place < labels.length + 1 := by
      have hplace := (List.getElem?_eq_some_iff.mp hl).1
      simpa only [List.length_append, List.length_singleton] using hplace
    rcases Nat.lt_succ_iff_lt_or_eq.mp hlt with hold | rfl
    · refine .inr ⟨⟨⟨l, by rwa [← hbefore hold], hintroduces⟩, fun later l' hlater hl' => ?_⟩,
        hsince _ _ hold hlast⟩
      refine hsince later l' hlater ?_
      rwa [hbefore (List.getElem?_eq_some_iff.mp hl').1]
    · rw [hlast] at hl
      cases hl
      exact .inl ⟨rfl, hintroduces⟩
  · rintro (⟨rfl, hintroduces⟩ | ⟨h, hnone, hkept⟩)
    · refine ⟨⟨label, hlast, hintroduces⟩, fun later l hlater hl => ?_⟩
      have hlt := (List.getElem?_eq_some_iff.mp hl).1
      rw [List.length_append, List.length_singleton] at hlt
      omega
    · obtain ⟨l, hl, hintroduces⟩ := h.entered
      refine ⟨⟨l, by rwa [hbefore h.lt_length], hintroduces⟩, fun later l' hlater hl' => ?_⟩
      have hlt := (List.getElem?_eq_some_iff.mp hl').1
      rw [List.length_append, List.length_singleton] at hlt
      rcases Nat.lt_succ_iff_lt_or_eq.mp hlt with hold | rfl
      · rw [hbefore hold] at hl'
        exact h.since later l' hlater hl'
      · rw [hlast] at hl'
        cases hl'
        exact ⟨hnone, hkept⟩

/-- A step that enters no node and evicts none leaves the record as it is. -/
theorem enteredAt_snoc_of_none {labels : List Label} {label : Label} {id : NodeId} {place : Nat}
    (hnone : label.introduces? id = none) (hkept : ¬ label.evicts id) :
    EnteredAt (labels ++ [label]) id place ↔ EnteredAt labels id place := by
  rw [enteredAt_snoc]
  constructor
  · rintro (⟨-, hintroduces⟩ | ⟨h, -⟩)
    · exact absurd hnone hintroduces
    · exact h
  · exact fun h => .inr ⟨h, hnone, hkept⟩

-- ---------------------------------------------------------------------------
-- A table that is as recorded
-- ---------------------------------------------------------------------------

/-- A table holds the nodes that stand entered, in the order in which they were entered,
each with the address that was recorded last. -/
structure Recorded (labels : List Label) (t : Table) : Prop where
  entered : ∀ id, id ∈ t.ids ↔ ∃ place, EnteredAt labels id place
  ordered : t.ids.Pairwise (EnteredBefore labels)
  located : ∀ seat ∈ t.seats, lastAddress? labels seat.1 = some seat.2

variable {labels : List Label} {t t' : Table}

theorem recorded_empty (capacity : Nat) : Recorded [] (.empty capacity) where
  entered id := by
    refine ⟨nofun, ?_⟩
    rintro ⟨place, h⟩
    exact absurd h.lt_length (Nat.not_lt_zero _)
  ordered := .nil
  located := nofun

/-- No node has two entries, as each stands entered at one place. -/
theorem Recorded.nodup (h : Recorded labels t) : t.ids.Nodup := by
  refine h.ordered.imp ?_
  rintro id _ ⟨place, place', hplace, hplace', hlt⟩ rfl
  exact absurd (hplace.unique hplace') (Nat.ne_of_lt hlt)

/-- A step that enters no node and evicts none. -/
theorem Recorded.snoc (h : Recorded labels t) {label : Label} (hids : t'.ids = t.ids)
    (hnone : ∀ id, label.introduces? id = none) (hkept : ∀ id, ¬ label.evicts id)
    (hlocated : ∀ seat ∈ t'.seats, lastAddress? (labels ++ [label]) seat.1 = some seat.2) :
    Recorded (labels ++ [label]) t' where
  entered id := by
    simp only [hids, h.entered, enteredAt_snoc_of_none (hnone id) (hkept id)]
  ordered := by
    rw [hids]
    refine h.ordered.imp ?_
    rintro id id' ⟨place, place', hplace, hplace', hlt⟩
    exact ⟨place, place', (enteredAt_snoc_of_none (hnone id) (hkept id)).mpr hplace,
      (enteredAt_snoc_of_none (hnone id') (hkept id')).mpr hplace', hlt⟩
  located := hlocated

/-- A step that changes neither nodes nor addresses. -/
theorem Recorded.keep (h : Recorded labels t) {label : Label} (hseats : t'.seats = t.seats)
    (hnone : ∀ id, label.introduces? id = none) (hkept : ∀ id, ¬ label.evicts id)
    (hlocates : ∀ id ∈ t.ids, label.locates? id = none) : Recorded (labels ++ [label]) t' := by
  have hids : t'.ids = t.ids := by
    rw [← t'.map_fst_seats, hseats, t.map_fst_seats]
  refine h.snoc hids hnone hkept fun seat hseat => ?_
  rw [hseats] at hseat
  rw [lastAddress?_snoc, hlocates _ (Table.mem_ids_of_mem_seats hseat), Option.none_or]
  exact h.located seat hseat

/-- Entering a new node puts it last. -/
theorem Recorded.insert (h : Recorded labels t) {id : NodeId} (hnew : id ∉ t.ids)
    (thread : Thread) (address : Address) (now : Nat) :
    Recorded (labels ++ [.performed thread ⟨.upsert id address now, .ok .inserted⟩])
      { t with entries := t.entries ++ [⟨id, address, now, 0⟩] } := by
  let label : Label := .performed thread ⟨.upsert id address now, .ok .inserted⟩
  have hself : label.introduces? id ≠ none := by
    simp [label, Label.introduces?]
  have hother : ∀ {id'}, id' ≠ id → label.introduces? id' = none :=
    fun hne => if_neg (Ne.symm hne)
  have hkept : ∀ id', ¬ label.evicts id' := fun _ => not_false
  have hne : ∀ {id'}, id' ∈ t.ids → id' ≠ id := fun hmem heq => hnew (heq ▸ hmem)
  have hold : ∀ {id' place}, id' ∈ t.ids → EnteredAt labels id' place →
      EnteredAt (labels ++ [label]) id' place :=
    fun hmem hplace => (enteredAt_snoc_of_none (hother (hne hmem)) (hkept _)).mpr hplace
  have hlast : EnteredAt (labels ++ [label]) id labels.length :=
    enteredAt_snoc.mpr (.inl ⟨rfl, hself⟩)
  refine ⟨fun id' => ?_, ?_, fun seat hseat => ?_⟩
  · rw [Table.ids, List.map_append, List.mem_append]
    constructor
    · rintro (hmem | hmem)
      · obtain ⟨place, hplace⟩ := (h.entered id').mp hmem
        exact ⟨place, hold hmem hplace⟩
      · cases List.mem_singleton.mp hmem
        exact ⟨_, hlast⟩
    · rintro ⟨place, hplace⟩
      by_cases heq : id' = id
      · exact .inr (List.mem_singleton.mpr heq)
      · rw [enteredAt_snoc_of_none (hother heq) (hkept _)] at hplace
        exact .inl ((h.entered id').mpr ⟨place, hplace⟩)
  · rw [Table.ids, List.map_append]
    refine List.pairwise_append.mpr ⟨?_, List.pairwise_singleton _ _, ?_⟩
    · refine h.ordered.imp_of_mem ?_
      rintro id₁ id₂ hmem₁ hmem₂ ⟨place, place', hplace, hplace', hlt⟩
      exact ⟨place, place', hold hmem₁ hplace, hold hmem₂ hplace', hlt⟩
    · intro id' hmem _ hid
      cases List.mem_singleton.mp hid
      obtain ⟨place, hplace⟩ := (h.entered id').mp hmem
      exact ⟨place, _, hold hmem hplace, hlast, hplace.lt_length⟩
  · rw [Table.seats, List.map_append] at hseat
    rw [lastAddress?_snoc]
    rcases List.mem_append.mp hseat with hmem | hmem
    · have hlocates : label.locates? seat.1 = none :=
        if_neg (Ne.symm (hne (Table.mem_ids_of_mem_seats hmem)))
      rw [hlocates, Option.none_or]
      exact h.located seat hmem
    · cases List.mem_singleton.mp hmem
      have hlocates : label.locates? id = some address := if_pos rfl
      rw [hlocates, Option.some_or]

/-- Hearing from a node again changes its address and nothing else. -/
theorem Recorded.refresh (h : Recorded labels t) (id : NodeId) (thread : Thread)
    (address : Address) (now : Nat) :
    Recorded (labels ++ [.performed thread ⟨.upsert id address now, .ok .refreshed⟩])
      { t with entries := Table.modifyFirst (·.id == id) (·.heardAt address now) t.entries } := by
  have hids := Table.map_modifyFirst (·.id) (·.id == id) (fun n => n.id_heardAt address now)
    t.entries
  refine h.snoc hids (fun _ => rfl) (fun _ => not_false) fun seat hseat => ?_
  obtain ⟨n', hn', rfl⟩ := List.mem_map.mp hseat
  rw [lastAddress?_snoc]
  rcases Table.mem_modifyFirst h.nodup hn' with ⟨hmem, hne⟩ | ⟨n, -, rfl, rfl⟩
  · rw [Label.locates?, if_neg (Ne.symm hne), Option.none_or]
    exact h.located (n'.id, n'.address) (List.mem_map_of_mem hmem)
  · rw [Label.locates?, if_pos (n.id_heardAt address now).symm, Option.some_or]
    rfl

/-- Eviction removes the nodes that it strikes from the record. -/
theorem Recorded.evict (h : Recorded labels t) (thread : Thread) (now staleAfter : Nat) :
    Recorded
      (labels ++ [.performed thread ⟨.evict now staleAfter, (t.evictStale now staleAfter).1⟩])
      (t.evictStale now staleAfter).2 := by
  let label : Label := .performed thread ⟨.evict now staleAfter, (t.evictStale now staleAfter).1⟩
  have hmem : ∀ {id}, id ∈ (t.evictStale now staleAfter).2.ids ↔
      id ∈ t.ids ∧ ¬ label.evicts id := by
    intro id
    constructor
    · intro hid
      refine ⟨Table.mem_of_mem_evictStale hid, ?_⟩
      rintro ⟨stale, hstale, hsame⟩
      obtain ⟨n, hn, rfl⟩ := List.mem_map.mp hid
      obtain ⟨hn, hfresh⟩ := List.mem_filter.mp hn
      obtain ⟨hstale, hold⟩ := List.mem_filter.mp hstale
      -- one node has one entry, which cannot be both stale and fresh
      cases List.inj_on_of_nodup_map h.nodup hstale hn hsame
      simp [hold] at hfresh
    · rintro ⟨hid, hkept⟩
      obtain ⟨n, hn, rfl⟩ := List.mem_map.mp hid
      refine List.mem_map_of_mem (List.mem_filter.mpr ⟨hn, ?_⟩)
      rw [Bool.not_eq_true']
      refine Bool.eq_false_iff.mpr fun hold => hkept ⟨n, List.mem_filter.mpr ⟨hn, hold⟩, rfl⟩
  have hplace : ∀ {id place}, EnteredAt (labels ++ [label]) id place ↔
      EnteredAt labels id place ∧ ¬ label.evicts id := by
    intro id place
    rw [enteredAt_snoc]
    constructor
    · rintro (⟨-, hintroduces⟩ | ⟨hplace, -, hkept⟩)
      · exact absurd rfl hintroduces
      · exact ⟨hplace, hkept⟩
    · rintro ⟨hplace, hkept⟩
      exact .inr ⟨hplace, rfl, hkept⟩
  change Recorded (labels ++ [label]) _
  refine ⟨fun id => ?_, ?_, fun seat hseat => ?_⟩
  · rw [hmem, h.entered]
    simp only [hplace, exists_and_right]
  · have hsublist : (t.evictStale now staleAfter).2.ids.Sublist t.ids :=
      List.filter_sublist.map _
    refine (h.ordered.sublist hsublist).imp_of_mem ?_
    rintro id id' hid hid' ⟨place, place', hat, hat', hlt⟩
    exact ⟨place, place', hplace.mpr ⟨hat, (hmem.mp hid).2⟩,
      hplace.mpr ⟨hat', (hmem.mp hid').2⟩, hlt⟩
  · have hold : seat ∈ t.seats := (List.filter_sublist.map _).subset hseat
    rw [lastAddress?_snoc]
    exact h.located seat hold

/-- Every access keeps the record. -/
theorem Recorded.perform {e : Engine} (h : Recorded labels e.neighbors) (socket : Socket)
    (thread : Thread) (a : Access) :
    Recorded (labels ++ [.performed thread ⟨a, (a.perform socket e).1⟩])
      (a.perform socket e).2.neighbors := by
  cases a with
  | upsert id address now =>
    rw [Access.perform]
    rcases e.neighbors.upsert_cases id address now with ⟨-, hok⟩ | ⟨hnew, -, hfull⟩ | ⟨hnew, -, hok⟩
    · rw [hok]
      exact h.refresh id thread address now
    · rw [hfull]
      refine h.keep rfl (fun _ => rfl) (fun _ => not_false) fun id' hid' => ?_
      have hne : id ≠ id' := fun heq => hnew (heq ▸ hid')
      exact if_neg hne
    · rw [hok]
      exact h.insert hnew thread address now
  | touch address now =>
    exact h.keep (e.neighbors.seats_touch address now) (fun _ => rfl) (fun _ => not_false)
      fun _ _ => rfl
  | recordFailure id =>
    refine h.keep ?_ (fun _ => rfl) (fun _ => not_false) fun _ _ => rfl
    rw [Access.perform]
    split
    · rename_i hok
      exact (Table.seats_recordFailure hok).1
    · rfl
  | evict now staleAfter => exact h.evict thread now staleAfter
  | _ => exact h.keep rfl (fun _ => rfl) (fun _ => not_false) fun _ _ => rfl

end AffineSwarm.Engine
