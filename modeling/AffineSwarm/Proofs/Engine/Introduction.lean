import AffineSwarm.Proofs.Engine.History
import AffineSwarm.Proofs.Neighbor.Table

/-!
# Who entered a neighbor

A node is entered into the table by one access of one thread, and stays until it is
evicted. So for every node in the table there is a thread that entered it last
(`introducer?_of_mem`).
-/

namespace AffineSwarm.Engine

/-- The thread that enters a node into the table in this step, if one does. -/
def Label.introduces? (id : NodeId) : Label → Option Thread
  | .performed thread ⟨.upsert id' _ _, .ok .inserted⟩ => if id' = id then some thread else none
  | _ => none

/-- A step that enters a node is an upsert that finds it new. -/
theorem introduces?_eq_some {id : NodeId} {label : Label} {thread : Thread}
    (h : label.introduces? id = some thread) :
    ∃ address now, label = .performed thread ⟨.upsert id address now, .ok .inserted⟩ := by
  unfold Label.introduces? at h
  split at h
  · split at h
    · rename_i hid
      cases hid
      cases h
      exact ⟨_, _, rfl⟩
    · cases h
  · cases h

/-- The thread that entered a node into the table last. -/
def introducer? (labels : List Label) (id : NodeId) : Option Thread :=
  (labels.filterMap (·.introduces? id)).getLast?

theorem introducer?_snoc (labels : List Label) (label : Label) (id : NodeId) :
    introducer? (labels ++ [label]) id = (label.introduces? id).or (introducer? labels id) := by
  rw [introducer?, filterMap_snoc, introducer?]
  cases label.introduces? id with
  | none => rw [Option.toList_none, List.append_nil, Option.none_or]
  | some thread => rw [Option.toList_some, List.getLast?_concat, Option.some_or]

/-- A node in the table after an access was there before, or the access entered it. -/
theorem introduces?_of_mem (socket : Socket) (e : Engine) (a : Access) (thread : Thread)
    {id : NodeId} (h : id ∈ (a.perform socket e).2.neighbors.ids) :
    id ∈ e.neighbors.ids ∨
      (Label.performed thread ⟨a, (a.perform socket e).1⟩).introduces? id = some thread := by
  cases a with
  | upsert id' address now =>
    cases hupsert : e.neighbors.upsert id' address now with
    | error _ =>
      simp only [Access.perform, hupsert] at h
      exact .inl h
    | ok result =>
      obtain ⟨outcome, t⟩ := result
      simp only [Access.perform, hupsert, Neighbor.Table.ids_upsert hupsert] at h
      cases outcome with
      | refreshed => exact .inl h
      | inserted =>
        rcases List.mem_append.mp h with hold | hnew
        · exact .inl hold
        · right
          simp only [Access.perform, hupsert, Label.introduces?]
          exact if_pos (List.mem_singleton.mp hnew).symm
  | touch address now => exact .inl (e.neighbors.ids_touch address now ▸ h)
  | recordFailure id' =>
    cases hfailure : e.neighbors.recordFailure id' with
    | error _ =>
      simp only [Access.perform, hfailure] at h
      exact .inl h
    | ok result =>
      simp only [Access.perform, hfailure, Neighbor.Table.ids_recordFailure hfailure] at h
      exact .inl h
  | evict now staleAfter => exact .inl (Neighbor.Table.mem_of_mem_evictStale h)
  | _ => exact .inl h

/-- Some thread has entered each node that is in the table. -/
theorem introducer?_of_mem {start m : Machine} {labels : List Label}
    (hstart : start.engine.neighbors.ids = []) (hrun : Run start labels m) {id : NodeId}
    (h : id ∈ m.engine.neighbors.ids) : ∃ thread, introducer? labels id = some thread := by
  induction hrun with
  | nil => exact absurd h (hstart ▸ List.not_mem_nil)
  | @snoc labels m m' label _ hstep ih =>
    rw [introducer?_snoc]
    have hold : id ∈ m.engine.neighbors.ids →
        ∃ thread, (label.introduces? id).or (introducer? labels id) = some thread := by
      intro hmem
      obtain ⟨thread, hthread⟩ := ih hmem
      rw [hthread]
      cases label.introduces? id with
      | none => exact ⟨thread, rfl⟩
      | some thread' => exact ⟨thread', rfl⟩
    cases hstep with
    | network socket work =>
      rcases introduces?_of_mem socket _ _ .network h with hmem | hnew
      · exact hold hmem
      · rw [hnew]
        exact ⟨.network, rfl⟩
    | @application before after c a next socket hpending =>
      rcases introduces?_of_mem socket _ _ (.application c) h with hmem | hnew
      · exact hold hmem
      · rw [hnew]
        exact ⟨.application c, rfl⟩
    | _ => exact hold h

/-- The step in which a thread entered a node. -/
theorem mem_of_introducer? {labels : List Label} {id : NodeId} {thread : Thread}
    (h : introducer? labels id = some thread) :
    ∃ address now, .performed thread ⟨.upsert id address now, .ok .inserted⟩ ∈ labels := by
  obtain ⟨label, hmem, hintroduces⟩ := List.mem_filterMap.mp (List.mem_of_getLast? h)
  obtain ⟨address, now, rfl⟩ := introduces?_eq_some hintroduces
  exact ⟨address, now, hmem⟩

end AffineSwarm.Engine
