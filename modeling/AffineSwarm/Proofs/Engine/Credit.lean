import AffineSwarm.Proofs.Engine.Enrolment

/-!
# When nodes were heard from

A node is credited when it is heard from: when a thread records it, and when somebody at its
address acknowledges, if it is the first that the table has at that address. Of the history
of a run one can tell when a node was credited last (`CreditedAt`) and how often a send to it
failed since (`failuresSince`). Every entry of the table says exactly this
(`Accounted`).

Every access keeps the accounts (`Accounts`: `Credited.perform`): it leaves an entry alone,
credits its node, or counts a failure against it.

## Results

* `Recorded.firstAt_iff` — the entry that an address stands for is a matter of record.
* `Accounted.keep`, `Accounted.blame`, `accounted_of_credits` — what may become of an entry.
* `Credited.perform` — every access keeps the accounts.
-/

namespace AffineSwarm.Engine

open Neighbor (Table)

-- ---------------------------------------------------------------------------
-- Credits and failures
-- ---------------------------------------------------------------------------

/-- The node that stands entered first of those that were heard from last at an address. -/
structure FirstAt (labels : List Label) (address : Address) (id : NodeId) : Prop where
  entered : ∃ place, EnteredAt labels id place
  located : lastAddress? labels id = some address
  first : ∀ id' place, EnteredAt labels id' place → lastAddress? labels id' = some address →
    id' = id ∨ EnteredBefore labels id id'

/-- The step, after others, credits a node with having been heard from at a time. -/
def Label.Credits (before : List Label) (id : NodeId) (time : Nat) : Label → Prop
  | .performed _ ⟨.upsert id' _ now, _⟩ => id' = id ∧ now = time
  | .performed _ ⟨.touch address now, _⟩ => FirstAt before address id ∧ now = time
  | _ => False

/-- The step counts a failed send against a node. -/
def Label.blames (id : NodeId) : Label → Bool
  | .performed _ ⟨.recordFailure id', _⟩ => id' == id
  | _ => false

/-- A node was credited by the step at a place in the history, and not since. -/
structure CreditedAt (labels : List Label) (id : NodeId) (place time : Nat) : Prop where
  credited : ∃ label, labels[place]? = some label ∧ label.Credits (labels.take place) id time
  since : ∀ later label time', place < later → labels[later]? = some label →
    ¬ label.Credits (labels.take later) id time'

/-- How many failed sends were counted against a node after a place in the history. -/
def failuresSince (labels : List Label) (id : NodeId) (place : Nat) : Nat :=
  (labels.drop (place + 1)).countP (·.blames id)

/-- The entry of a node that stands entered says when it was credited last, which was then or
later, and how often a send to it failed since, up to the largest count. -/
def Accounted (labels : List Label) (n : Neighbor) : Prop :=
  ∃ entered place, EnteredAt labels n.id entered ∧ entered ≤ place ∧
    CreditedAt labels n.id place n.lastSeen ∧
    n.failures.toNat = min (failuresSince labels n.id place) (UInt32.size - 1)

variable {labels : List Label} {label : Label} {n : Neighbor} {id : NodeId} {place time : Nat}

theorem CreditedAt.lt_length (h : CreditedAt labels id place time) : place < labels.length := by
  obtain ⟨label, hlabel, -⟩ := h.credited
  exact (List.getElem?_eq_some_iff.mp hlabel).1

/-- A step that credits a node is the last one that did. -/
theorem creditedAt_last (h : label.Credits labels id time) :
    CreditedAt (labels ++ [label]) id labels.length time where
  credited := by
    refine ⟨label, List.getElem?_concat_length, ?_⟩
    rwa [List.take_left]
  since later l time' hlater hl := by
    have hlt := (List.getElem?_eq_some_iff.mp hl).1
    rw [List.length_append, List.length_singleton] at hlt
    omega

/-- A step that does not credit a node leaves the place where it was credited last. -/
theorem CreditedAt.snoc (h : CreditedAt labels id place time)
    (hnone : ∀ time, ¬ label.Credits labels id time) :
    CreditedAt (labels ++ [label]) id place time where
  credited := by
    obtain ⟨l, hl, hcredits⟩ := h.credited
    refine ⟨l, ?_, ?_⟩
    · rwa [List.getElem?_append_left h.lt_length]
    · rwa [List.take_append_of_le_length (Nat.le_of_lt h.lt_length)]
  since later l time' hlater hl := by
    have hlt := (List.getElem?_eq_some_iff.mp hl).1
    rw [List.length_append, List.length_singleton] at hlt
    rcases Nat.lt_succ_iff_lt_or_eq.mp hlt with hold | rfl
    · rw [List.getElem?_append_left hold] at hl
      rw [List.take_append_of_le_length (Nat.le_of_lt hold)]
      exact h.since later l time' hlater hl
    · rw [List.getElem?_concat_length] at hl
      cases hl
      rw [List.take_left]
      exact hnone time'

theorem failuresSince_snoc (hplace : place < labels.length) :
    failuresSince (labels ++ [label]) id place =
      failuresSince labels id place + if label.blames id then 1 else 0 := by
  rw [failuresSince, List.drop_append_of_le_length hplace, List.countP_append,
    List.countP_singleton, failuresSince]

-- ---------------------------------------------------------------------------
-- What may become of an entry
-- ---------------------------------------------------------------------------

/-- Who is entered is credited. -/
theorem credits_of_introduces {before : List Label} (h : label.introduces? id ≠ none) :
    ∃ time, label.Credits before id time := by
  obtain ⟨thread, hthread⟩ := Option.ne_none_iff_exists'.mp h
  obtain ⟨address, now, rfl⟩ := introduces?_eq_some hthread
  exact ⟨now, rfl, rfl⟩

/-- An entry whose node a step does not credit, with the failures that it counts. -/
theorem Accounted.snoc (h : Accounted labels n)
    (hentered : ∃ entered, EnteredAt (labels ++ [label]) n.id entered)
    (hnone : ∀ time, ¬ label.Credits labels n.id time) {n' : Neighbor} (hid : n'.id = n.id)
    (hseen : n'.lastSeen = n.lastSeen)
    (hfailures : n'.failures.toNat =
      min (n.failures.toNat + if label.blames n.id then 1 else 0) (UInt32.size - 1)) :
    Accounted (labels ++ [label]) n' := by
  obtain ⟨entered, place, hbefore, hle, hcredited, hcount⟩ := h
  obtain ⟨entered', hafter⟩ := hentered
  have hsame : entered' = entered := by
    rcases enteredAt_snoc.mp hafter with ⟨-, hintroduces⟩ | ⟨hold, -⟩
    · obtain ⟨time, hcredits⟩ := credits_of_introduces hintroduces
      exact absurd hcredits (hnone time)
    · exact hold.unique hbefore
  subst hsame
  refine ⟨entered', place, hid ▸ hafter, hle, ?_, ?_⟩
  · rw [hid, hseen]
    exact hcredited.snoc hnone
  · rw [hid, hfailures, failuresSince_snoc hcredited.lt_length, hcount]
    omega

/-- An entry that a step leaves alone. -/
theorem Accounted.keep (h : Accounted labels n)
    (hentered : ∃ entered, EnteredAt (labels ++ [label]) n.id entered)
    (hnone : ∀ time, ¬ label.Credits labels n.id time) (hblames : label.blames n.id = false) :
    Accounted (labels ++ [label]) n := by
  refine h.snoc hentered hnone rfl rfl ?_
  have hlt := n.failures.toNat_lt
  simp only [hblames, UInt32.size, Bool.false_eq_true, if_false]
  omega

/-- An entry against which a step counts a failure. -/
theorem Accounted.blame (h : Accounted labels n)
    (hentered : ∃ entered, EnteredAt (labels ++ [label]) n.id entered)
    (hnone : ∀ time, ¬ label.Credits labels n.id time) (hblames : label.blames n.id = true) :
    Accounted (labels ++ [label]) n.failedOnce := by
  refine h.snoc hentered hnone rfl rfl ?_
  rw [hblames]
  exact n.toNat_failedOnce

/-- An entry whose node a step credits. -/
theorem accounted_of_credits (hentered : ∃ entered, EnteredAt (labels ++ [label]) n.id entered)
    (hcredits : label.Credits labels n.id n.lastSeen) (hfailures : n.failures = 0) :
    Accounted (labels ++ [label]) n := by
  obtain ⟨entered, hentered⟩ := hentered
  refine ⟨entered, labels.length, hentered, ?_, creditedAt_last hcredits, ?_⟩
  · have hlt := hentered.lt_length
    rw [List.length_append, List.length_singleton] at hlt
    omega
  · rw [hfailures, failuresSince, List.drop_of_length_le (by simp)]
    rfl

-- ---------------------------------------------------------------------------
-- The entry at an address
-- ---------------------------------------------------------------------------

variable {t : Table} {address : Address}

theorem EnteredBefore.asymm {id id' : NodeId} (h : EnteredBefore labels id id') :
    ¬ EnteredBefore labels id' id := by
  rintro ⟨place₂', place₂, hplace₂', hplace₂, hlt₂⟩
  obtain ⟨place₁, place₁', hplace₁, hplace₁', hlt₁⟩ := h
  cases hplace₁.unique hplace₂
  cases hplace₁'.unique hplace₂'
  omega

theorem Recorded.lastAddress?_eq (h : Recorded labels t) (hn : n ∈ t.entries) :
    lastAddress? labels n.id = some n.address :=
  h.located (n.id, n.address) (List.mem_map_of_mem hn)

/-- The node of an entry stands entered. -/
theorem Recorded.enteredAt_of_mem (h : Recorded labels t) (hn : n ∈ t.entries) :
    ∃ place, EnteredAt labels n.id place :=
  (h.entered n.id).mp (List.mem_map_of_mem hn)

/-- A node that stands entered has an entry, with the address where it was heard from last. -/
theorem Recorded.mem_of_enteredAt (h : Recorded labels t) (hplace : EnteredAt labels id place)
    (hlocated : lastAddress? labels id = some address) :
    ∃ n ∈ t.entries, n.id = id ∧ n.address = address := by
  obtain ⟨n, hn, rfl⟩ := List.mem_map.mp ((h.entered id).mpr ⟨place, hplace⟩)
  refine ⟨n, hn, rfl, ?_⟩
  rw [h.lastAddress?_eq hn] at hlocated
  exact Option.some.inj hlocated

/-- The first entry with an address, and how the others with that address stand to it. -/
theorem Recorded.before_of_find? (h : Recorded labels t)
    (hfind : t.entries.find? (·.address == address) = some n) {n' : Neighbor}
    (hn' : n' ∈ t.entries) (haddress : n'.address = address) :
    n'.id = n.id ∨ EnteredBefore labels n.id n'.id := by
  obtain ⟨-, older, newer, hentries, holder⟩ := List.find?_eq_some_iff_append.mp hfind
  have hordered := h.ordered
  rw [Table.ids, hentries, List.map_append, List.map_cons, List.pairwise_append,
    List.pairwise_cons] at hordered
  rw [hentries] at hn'
  rcases List.mem_append.mp hn' with hmem | hmem
  · have hother := holder n' hmem
    simp [haddress] at hother
  · rcases List.mem_cons.mp hmem with rfl | hnewer
    · exact .inl rfl
    · exact .inr (hordered.2.1.1 _ (List.mem_map_of_mem hnewer))

/-- The node that an address stands for is that of the first entry with the address. -/
theorem Recorded.firstAt_iff (h : Recorded labels t) :
    FirstAt labels address id ↔
      ∃ n, t.entries.find? (·.address == address) = some n ∧ n.id = id := by
  constructor
  · rintro ⟨⟨place, hplace⟩, hlocated, hfirst⟩
    obtain ⟨n, hn, rfl, rfl⟩ := h.mem_of_enteredAt hplace hlocated
    have hsome : (t.entries.find? (·.address == n.address)).isSome :=
      List.find?_isSome.mpr ⟨n, hn, beq_self_eq_true n.address⟩
    obtain ⟨n₀, hfind⟩ := Option.isSome_iff_exists.mp hsome
    refine ⟨n₀, hfind, ?_⟩
    have hn₀ := List.mem_of_find?_eq_some hfind
    have haddress : n₀.address = n.address := by simpa using List.find?_some hfind
    obtain ⟨place₀, hplace₀⟩ := h.enteredAt_of_mem hn₀
    rcases hfirst n₀.id place₀ hplace₀ (haddress ▸ h.lastAddress?_eq hn₀) with heq | hbefore
    · exact heq
    · rcases h.before_of_find? hfind hn rfl with heq | hafter
      · exact heq.symm
      · exact absurd hbefore hafter.asymm
  · rintro ⟨n, hfind, rfl⟩
    have hn := List.mem_of_find?_eq_some hfind
    have haddress : n.address = address := by simpa using List.find?_some hfind
    refine ⟨h.enteredAt_of_mem hn, haddress ▸ h.lastAddress?_eq hn, ?_⟩
    intro id' place hplace hlocated
    obtain ⟨n', hn', rfl, haddress'⟩ := h.mem_of_enteredAt hplace hlocated
    exact h.before_of_find? hfind hn' haddress'

-- ---------------------------------------------------------------------------
-- The accounts
-- ---------------------------------------------------------------------------

/-- Every entry says when its node was credited last, and how often a send failed since. -/
def Credited (labels : List Label) (t : Table) : Prop := ∀ n ∈ t.entries, Accounted labels n

/-- Every access keeps the accounts. -/
theorem Credited.perform {e : Engine} (h : Credited labels e.neighbors)
    (hrecorded : Recorded labels e.neighbors) (socket : Socket) (thread : Thread) (a : Access) :
    Credited (labels ++ [.performed thread ⟨a, (a.perform socket e).1⟩])
      (a.perform socket e).2.neighbors := by
  have hafter := hrecorded.perform socket thread a
  intro n' hn'
  have hentered := hafter.enteredAt_of_mem hn'
  cases a with
  | upsert id address now =>
    rw [Access.perform] at hn' hentered ⊢
    rcases e.neighbors.upsert_cases id address now with ⟨-, hok⟩ | ⟨hnew, -, hfull⟩ | ⟨hnew, -, hok⟩
    · rw [hok] at hn' hentered ⊢
      rcases Table.mem_modifyFirst hrecorded.nodup hn' with ⟨hmem, hne⟩ | ⟨n, hn, rfl, rfl⟩
      · exact (h n' hmem).keep hentered (fun _ hcredits => hne hcredits.1.symm) rfl
      · exact accounted_of_credits hentered ⟨rfl, rfl⟩ rfl
    · rw [hfull] at hn' hentered ⊢
      refine (h n' hn').keep hentered (fun _ hcredits => hnew ?_) rfl
      exact hcredits.1 ▸ List.mem_map_of_mem hn'
    · rw [hok] at hn' hentered ⊢
      rcases List.mem_append.mp hn' with hmem | hmem
      · refine (h n' hmem).keep hentered (fun _ hcredits => hnew ?_) rfl
        exact hcredits.1 ▸ List.mem_map_of_mem hmem
      · cases List.mem_singleton.mp hmem
        exact accounted_of_credits hentered ⟨rfl, rfl⟩ rfl
  | touch address now =>
    rcases Table.mem_modifyFirst_find? hrecorded.nodup hn' with ⟨hmem, hother⟩ | ⟨n, hfind, rfl⟩
    · refine (h n' hmem).keep hentered (fun _ hcredits => ?_) rfl
      obtain ⟨n, hfind, hid⟩ := hrecorded.firstAt_iff.mp hcredits.1
      exact hother n hfind hid
    · exact accounted_of_credits hentered ⟨hrecorded.firstAt_iff.mpr ⟨n, hfind, rfl⟩, rfl⟩ rfl
  | recordFailure id =>
    rw [Access.perform] at hn' hentered ⊢
    rcases e.neighbors.recordFailure_cases id with ⟨hnew, herror⟩ | ⟨count, hok⟩
    · rw [herror] at hn' hentered ⊢
      have hne : n'.id ≠ id := fun heq => hnew (heq ▸ List.mem_map_of_mem hn')
      exact (h n' hn').keep hentered (fun _ => not_false) (beq_eq_false_iff_ne.mpr hne.symm)
    · rw [hok] at hn' hentered ⊢
      rcases Table.mem_modifyFirst hrecorded.nodup hn' with ⟨hmem, hne⟩ | ⟨n, hn, rfl, rfl⟩
      · exact (h n' hmem).keep hentered (fun _ => not_false) (beq_eq_false_iff_ne.mpr hne.symm)
      · exact (h n hn).blame hentered (fun _ => not_false) (beq_self_eq_true n.id)
  | evict now staleAfter =>
    exact (h n' (List.mem_of_mem_filter hn')).keep hentered (fun _ => not_false) rfl
  | _ => exact (h n' hn').keep hentered (fun _ => not_false) rfl

end AffineSwarm.Engine
