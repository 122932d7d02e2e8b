import AffineSwarm.Neighbor.Table

/-!
# The nodes in a neighbor table

Which nodes a table has is changed by two operations only: an `upsert` that enters a new
node adds it at the end, and eviction removes nodes. All others change entries in place.

What an `upsert` does is said once (`upsert_cases`): it refreshes a node that the table has,
enters a new one if there is room, and otherwise changes nothing. What a failed send does is
`recordFailure_cases`.
-/

namespace AffineSwarm.Neighbor

theorem id_heardAt (n : Neighbor) (address : Address) (now : Nat) :
    (n.heardAt address now).id = n.id := rfl

/-- One more failed send, which the count takes in until it is at its largest. -/
theorem toNat_failedOnce (n : Neighbor) :
    n.failedOnce.failures.toNat = min (n.failures.toNat + 1) (UInt32.size - 1) := by
  have hlt := n.failures.toNat_lt
  rw [failedOnce]
  by_cases hfull : n.failures = 0xffffffff
  · simp only [hfull, if_true]
    decide
  · have hne : n.failures.toNat ≠ 4294967295 := fun heq => hfull (UInt32.toNat_inj.mp heq)
    simp only [if_neg hfull, UInt32.toNat_add, UInt32.reduceToNat, UInt32.size]
    omega

namespace Table

/-- The nodes that a table has, first heard from first. -/
def ids (t : Table) : List NodeId := t.entries.map (·.id)

theorem length_ids (t : Table) : t.ids.length = t.length := List.length_map _

/-- The nodes with the addresses that a table has for them. -/
def seats (t : Table) : List (NodeId × Address) := t.entries.map fun n => (n.id, n.address)

theorem map_fst_seats (t : Table) : t.seats.map Prod.fst = t.ids := List.map_map

theorem mem_ids_of_mem_seats {t : Table} {seat : NodeId × Address} (h : seat ∈ t.seats) :
    seat.1 ∈ t.ids := by
  rw [← t.map_fst_seats]
  exact List.mem_map_of_mem h

/-- What a change keeps of every entry, it keeps of the table. -/
theorem map_modifyFirst {β : Type} (view : Neighbor → β) (test : Neighbor → Bool)
    {change : Neighbor → Neighbor} (h : ∀ n, view (change n) = view n)
    (entries : List Neighbor) :
    (modifyFirst test change entries).map view = entries.map view := by
  induction entries with
  | nil => rfl
  | cons n rest ih =>
    rw [modifyFirst]
    split
    · simp only [List.map_cons, h]
    · simp only [List.map_cons, ih]

/-- In a table without repetitions, changing the entry of a node changes no other. -/
theorem mem_modifyFirst {entries : List Neighbor} {id : NodeId} {change : Neighbor → Neighbor}
    (hnodup : (entries.map (·.id)).Nodup) {n' : Neighbor}
    (h : n' ∈ modifyFirst (·.id == id) change entries) :
    (n' ∈ entries ∧ n'.id ≠ id) ∨ ∃ n ∈ entries, n.id = id ∧ n' = change n := by
  induction entries with
  | nil => cases h
  | cons n rest ih =>
    rw [List.map_cons, List.nodup_cons] at hnodup
    rw [modifyFirst] at h
    by_cases hid : n.id = id
    · rw [if_pos (beq_iff_eq.mpr hid)] at h
      rcases List.mem_cons.mp h with rfl | hrest
      · exact .inr ⟨n, List.mem_cons_self, hid, rfl⟩
      · refine .inl ⟨List.mem_cons_of_mem _ hrest, fun heq => hnodup.1 ?_⟩
        rw [hid, ← heq]
        exact List.mem_map_of_mem hrest
    · rw [if_neg (by simpa using hid)] at h
      rcases List.mem_cons.mp h with rfl | hrest
      · exact .inl ⟨List.mem_cons_self, hid⟩
      · rcases ih hnodup.2 hrest with ⟨hmem, hne⟩ | ⟨n₀, hmem, hn₀⟩
        · exact .inl ⟨List.mem_cons_of_mem _ hmem, hne⟩
        · exact .inr ⟨n₀, List.mem_cons_of_mem _ hmem, hn₀⟩

/-- What changing the first entry that passes a test does to an entry. -/
theorem mem_modifyFirst_find? {entries : List Neighbor} {test : Neighbor → Bool}
    {change : Neighbor → Neighbor} (hnodup : (entries.map (·.id)).Nodup) {n' : Neighbor}
    (h : n' ∈ modifyFirst test change entries) :
    (n' ∈ entries ∧ ∀ n, entries.find? test = some n → n.id ≠ n'.id) ∨
      ∃ n, entries.find? test = some n ∧ n' = change n := by
  induction entries with
  | nil => cases h
  | cons n rest ih =>
    rw [List.map_cons, List.nodup_cons] at hnodup
    rw [modifyFirst] at h
    by_cases htest : test n = true
    · rw [if_pos htest] at h
      rw [List.find?_cons_of_pos htest]
      rcases List.mem_cons.mp h with rfl | hrest
      · exact .inr ⟨n, rfl, rfl⟩
      · refine .inl ⟨List.mem_cons_of_mem _ hrest, ?_⟩
        rintro _ ⟨⟩ heq
        exact hnodup.1 (heq ▸ List.mem_map_of_mem hrest)
    · rw [if_neg htest] at h
      rw [List.find?_cons_of_neg htest]
      rcases List.mem_cons.mp h with rfl | hrest
      · refine .inl ⟨List.mem_cons_self, fun n₀ hfind heq => hnodup.1 ?_⟩
        exact heq ▸ List.mem_map_of_mem (List.mem_of_find?_eq_some hfind)
      · rcases ih hnodup.2 hrest with ⟨hmem, hother⟩ | hchanged
        · exact .inl ⟨List.mem_cons_of_mem _ hmem, hother⟩
        · exact .inr hchanged

/-- What recording a node does: it refreshes the node, finds no room, or enters it. -/
theorem upsert_cases (t : Table) (id : NodeId) (address : Address) (now : Nat) :
    (id ∈ t.ids ∧ t.upsert id address now =
      .ok (.refreshed,
        { t with entries := modifyFirst (·.id == id) (·.heardAt address now) t.entries })) ∨
    (id ∉ t.ids ∧ t.capacity ≤ t.length ∧
      t.upsert id address now = .error (.tableFull t.capacity)) ∨
    (id ∉ t.ids ∧ t.length < t.capacity ∧ t.upsert id address now =
      .ok (.inserted, { t with entries := t.entries ++ [⟨id, address, now, 0⟩] })) := by
  have hany : t.entries.any (·.id == id) = true ↔ id ∈ t.ids := by
    simp only [List.any_eq_true, beq_iff_eq, ids, List.mem_map]
  rw [upsert, length]
  by_cases hmem : id ∈ t.ids
  · rw [if_pos (hany.mpr hmem)]
    exact .inl ⟨hmem, rfl⟩
  · rw [if_neg fun h => hmem (hany.mp h)]
    by_cases hfull : t.capacity ≤ t.entries.length
    · rw [if_pos hfull]
      exact .inr (.inl ⟨hmem, hfull, rfl⟩)
    · rw [if_neg hfull]
      exact .inr (.inr ⟨hmem, Nat.lt_of_not_le hfull, rfl⟩)

/-- A node that is heard from again changes its entry; a new one is entered at the end. -/
theorem ids_upsert {t t' : Table} {id : NodeId} {address : Address} {now : Nat}
    {outcome : Upsert} (h : t.upsert id address now = .ok (outcome, t')) :
    t'.ids = if outcome = .inserted then t.ids ++ [id] else t.ids := by
  rw [upsert] at h
  split at h
  · cases h
    exact map_modifyFirst _ _ (fun n => n.id_heardAt address now) _
  · split at h
    · cases h
    · cases h
      exact List.map_append

/-- The seats after a node was recorded are those before it, or the one that was recorded. -/
theorem mem_seats_upsert {t t' : Table} {id : NodeId} {address : Address} {now : Nat}
    {outcome : Upsert} (hnodup : t.ids.Nodup)
    (h : t.upsert id address now = .ok (outcome, t')) {seat : NodeId × Address}
    (hseat : seat ∈ t'.seats) : seat ∈ t.seats ∨ seat = (id, address) := by
  obtain ⟨n', hn', rfl⟩ := List.mem_map.mp hseat
  rcases t.upsert_cases id address now with ⟨-, hok⟩ | ⟨-, -, hfull⟩ | ⟨-, -, hok⟩
  · rw [h] at hok
    cases hok
    rcases mem_modifyFirst hnodup hn' with ⟨hmem, -⟩ | ⟨n, -, rfl, rfl⟩
    · exact .inl (List.mem_map_of_mem hmem)
    · exact .inr rfl
  · rw [h] at hfull
    cases hfull
  · rw [h] at hok
    cases hok
    rcases List.mem_append.mp hn' with hmem | hnew
    · exact .inl (List.mem_map_of_mem hmem)
    · cases List.mem_singleton.mp hnew
      exact .inr rfl

/-- A node that was recorded is in the table. -/
theorem mem_ids_upsert {t t' : Table} {id : NodeId} {address : Address} {now : Nat}
    {outcome : Upsert} (h : t.upsert id address now = .ok (outcome, t')) : id ∈ t'.ids := by
  rw [ids_upsert h]
  rcases t.upsert_cases id address now with ⟨hmem, hok⟩ | ⟨-, -, hfull⟩ | ⟨-, -, hok⟩
  · rw [h] at hok
    cases hok
    exact hmem
  · rw [h] at hfull
    cases hfull
  · rw [h] at hok
    cases hok
    exact List.mem_append_right _ List.mem_cons_self

theorem seats_touch (t : Table) (address : Address) (now : Nat) :
    (t.touch address now).2.seats = t.seats := by
  have hseat : ∀ n : Neighbor,
      ((n.heardAt n.address now).id, (n.heardAt n.address now).address) = (n.id, n.address) :=
    fun _ => rfl
  exact map_modifyFirst _ _ hseat _

theorem ids_touch (t : Table) (address : Address) (now : Nat) :
    (t.touch address now).2.ids = t.ids := by
  rw [← map_fst_seats, seats_touch, map_fst_seats]

/-- What counting a failure does: it finds no entry of the node, or changes that entry. -/
theorem recordFailure_cases (t : Table) (id : NodeId) :
    (id ∉ t.ids ∧ t.recordFailure id = .error (.notFound id)) ∨
    ∃ count, t.recordFailure id = .ok (count,
      { t with entries := modifyFirst (·.id == id) failedOnce t.entries }) := by
  rw [recordFailure]
  cases hfind : t.find? id with
  | none =>
    refine .inl ⟨fun hmem => ?_, rfl⟩
    obtain ⟨n, hn, rfl⟩ := List.mem_map.mp hmem
    exact absurd (beq_self_eq_true n.id) (List.find?_eq_none.mp hfind n hn)
  | some n => exact .inr ⟨_, rfl⟩

theorem seats_recordFailure {t t' : Table} {id : NodeId} {count : UInt32}
    (h : t.recordFailure id = .ok (count, t')) :
    t'.seats = t.seats ∧ t'.capacity = t.capacity := by
  have hseat : ∀ n : Neighbor, (n.failedOnce.id, n.failedOnce.address) = (n.id, n.address) :=
    fun _ => rfl
  rw [recordFailure] at h
  split at h
  · cases h
  · cases h
    exact ⟨map_modifyFirst _ _ hseat _, rfl⟩

theorem ids_recordFailure {t t' : Table} {id : NodeId} {count : UInt32}
    (h : t.recordFailure id = .ok (count, t')) : t'.ids = t.ids := by
  rw [← map_fst_seats, (seats_recordFailure h).1, map_fst_seats]

/-- A table from which nothing is removed stays as it is. -/
theorem evictStale_eq_self {t : Table} {now staleAfter : Nat}
    (h : (t.evictStale now staleAfter).1 = []) : (t.evictStale now staleAfter).2 = t := by
  have hfresh : t.entries.filter (fun n => !n.isStale now staleAfter) = t.entries := by
    refine List.filter_eq_self.mpr fun n hn => ?_
    simpa using List.filter_eq_nil_iff.mp h n hn
  rw [evictStale, hfresh]

theorem mem_of_mem_evictStale {t : Table} {now staleAfter : Nat} {id : NodeId}
    (h : id ∈ (t.evictStale now staleAfter).2.ids) : id ∈ t.ids := by
  obtain ⟨n, hmem, rfl⟩ := List.mem_map.mp h
  exact List.mem_map_of_mem (List.mem_filter.mp hmem).1

end Table

end AffineSwarm.Neighbor
