import AffineSwarm.Proofs.Engine.Datagram
import AffineSwarm.Proofs.Event.Ring
import AffineSwarm.Engine.Threads

/-!
# The history of a run

What the labels of a run tell about the queue and about acknowledgements: the events
that arrived, those that were brought to the queue and those that it accepted, those
that the application took, and the acknowledgements that were sent. What is in the queue
follows from them by a law that every access keeps (`perform_events`): no accepted event
is lost, changed, overtaken or taken twice.
-/

namespace AffineSwarm.Engine

-- ---------------------------------------------------------------------------
-- Runs
-- ---------------------------------------------------------------------------

/-- An engine that starts is fresh. -/
theorem start_eq_ok {config : EngineConfig} {opening : Opening} {e : Engine}
    (h : start config opening = .ok e) : ∃ localAddress, e = fresh config localAddress := by
  obtain ⟨bound, receiveTimeout, broadcasting, localAddress, spawned⟩ := opening
  rw [start] at h
  cases hvalid : config.validate with
  | error _ =>
    rw [hvalid] at h
    cases h
  | ok _ =>
    rw [hvalid] at h
    cases bound with
    | error _ => cases h
    | ok _ =>
      cases receiveTimeout with
      | error _ => cases h
      | ok _ =>
        -- whether broadcasts were asked for or not, the same calls follow
        have hrest : (do
            let localAddress ← refused localAddress
            unspawned spawned
            return fresh config localAddress) = Except.ok e := by
          by_cases hbroadcast : config.broadcast.isSome = true
          · simp only [hbroadcast, if_true] at h
            cases broadcasting with
            | error _ => cases h
            | ok _ => exact h
          · simp only [hbroadcast] at h
            exact h
        cases localAddress with
        | error _ => cases hrest
        | ok localAddress =>
          cases spawned with
          | error _ => cases hrest
          | ok _ =>
            cases hrest
            exact ⟨localAddress, rfl⟩

theorem forall_mem_replace {P : Pending → Prop} {before after : List Pending} {c c' : Pending}
    (h : ∀ x ∈ before ++ c :: after, P x) (hc : P c') : ∀ x ∈ before ++ c' :: after, P x := by
  rw [List.forall_mem_append, List.forall_mem_cons] at h ⊢
  exact ⟨h.1, hc, h.2.2⟩

theorem forall_mem_remove {P : Pending → Prop} {before after : List Pending} {c : Pending}
    (h : ∀ x ∈ before ++ c :: after, P x) : ∀ x ∈ before ++ after, P x := by
  rw [List.forall_mem_append, List.forall_mem_cons] at h
  rw [List.forall_mem_append]
  exact ⟨h.1, h.2.2⟩

-- ---------------------------------------------------------------------------
-- What a run shows
-- ---------------------------------------------------------------------------

/-- The event that a step should bring to the queue. -/
def Label.arrival? (s : Setup) : Label → Option Event
  | .received datagram origin _ => dueEvent s datagram origin
  | _ => none

/-- The event that an access brings to the queue, and whether the queue accepts it. -/
def Label.push? : Label → Option (Event × Bool)
  | .performed _ ⟨.push event, accepted⟩ => some (event, accepted)
  | _ => none

/-- The events that an access takes from the queue. -/
def Label.taken : Label → List Event
  | .performed _ ⟨.pop, event⟩ => event.toList
  | .performed _ ⟨.drain, events⟩ => events
  | _ => []

/-- An attempt to send an acknowledgement: where to, and with what status. -/
def Label.ack? (hash : KeyedHash) : Label → Option (Address × UInt8)
  | .performed _ ⟨.send frame target, _⟩ =>
    (ackStatus? hash frame).map fun status => (target, status)
  | _ => none

/-- The events of the greetings and formulas of other nodes, as they arrived. -/
def arrivals (s : Setup) (labels : List Label) : List Event := labels.filterMap (·.arrival? s)

/-- The events that were brought to the queue, and whether it accepted them. -/
def pushes (labels : List Label) : List (Event × Bool) := labels.filterMap Label.push?

/-- The events that the queue accepted. -/
def accepted (labels : List Label) : List Event :=
  ((pushes labels).filter Prod.snd).map Prod.fst

/-- The events that the application took. -/
def taken (labels : List Label) : List Event := labels.flatMap Label.taken

/-- The acknowledgements that were sent or failed to be sent. -/
def acks (hash : KeyedHash) (labels : List Label) : List (Address × UInt8) :=
  labels.filterMap (·.ack? hash)

theorem filterMap_snoc {α β : Type} (f : α → Option β) (xs : List α) (x : α) :
    (xs ++ [x]).filterMap f = xs.filterMap f ++ (f x).toList := by
  rw [List.filterMap_append]
  cases hx : f x <;> simp [hx]

theorem arrivals_snoc (s : Setup) (labels : List Label) (label : Label) :
    arrivals s (labels ++ [label]) = arrivals s labels ++ (label.arrival? s).toList :=
  filterMap_snoc ..

theorem pushes_snoc (labels : List Label) (label : Label) :
    pushes (labels ++ [label]) = pushes labels ++ label.push?.toList :=
  filterMap_snoc ..

theorem acks_snoc (hash : KeyedHash) (labels : List Label) (label : Label) :
    acks hash (labels ++ [label]) = acks hash labels ++ (label.ack? hash).toList :=
  filterMap_snoc ..

theorem accepted_append (labels more : List Label) :
    accepted (labels ++ more) = accepted labels ++ accepted more := by
  simp only [accepted, pushes, List.filterMap_append, List.filter_append, List.map_append]

theorem taken_append (labels more : List Label) :
    taken (labels ++ more) = taken labels ++ taken more :=
  List.flatMap_append

/-- The step in which the queue accepted an event. -/
theorem mem_of_mem_accepted {labels : List Label} {event : Event} (h : event ∈ accepted labels) :
    ∃ thread, .performed thread ⟨.push event, true⟩ ∈ labels := by
  obtain ⟨⟨event', flag⟩, hmem, rfl⟩ := List.mem_map.mp h
  obtain ⟨hpush, rfl⟩ := List.mem_filter.mp hmem
  obtain ⟨label, hlabel, heq⟩ := List.mem_filterMap.mp hpush
  unfold Label.push? at heq
  split at heq
  · cases heq
    exact ⟨_, hlabel⟩
  · cases heq

-- ---------------------------------------------------------------------------
-- The queue along a run
-- ---------------------------------------------------------------------------

@[simp] theorem setup_perform (socket : Socket) (e : Engine) (a : Access) :
    (a.perform socket e).2.setup = e.setup := by
  cases a with
  | upsert id address now =>
    rw [Access.perform]
    split <;> rfl
  | recordFailure id =>
    rw [Access.perform]
    split <;> rfl
  | _ => rfl

/-- The events that an access leaves in the queue, with those it takes, are those that
were there, with those it brings and the queue accepts. -/
theorem perform_events (socket : Socket) (e : Engine) (a : Access) (thread : Thread)
    {waiting : List Event} (h : e.events.Represents waiting) :
    ∃ left, (a.perform socket e).2.events.Represents left ∧
      waiting ++ accepted [.performed thread ⟨a, (a.perform socket e).1⟩] =
        taken [.performed thread ⟨a, (a.perform socket e).1⟩] ++ left := by
  cases a with
  | push event =>
    by_cases hroom : waiting.length < e.events.capacity
    · obtain ⟨hpushed, hrepresents⟩ := h.push hroom event
      refine ⟨waiting ++ [event], hrepresents, ?_⟩
      simp [Access.perform, accepted, pushes, taken, Label.push?, Label.taken, hpushed]
    · have hfull : waiting.length = e.events.capacity :=
        Nat.le_antisymm h.length_le (Nat.le_of_not_lt hroom)
      obtain ⟨hrefused, hrepresents⟩ := h.push_full hfull event
      refine ⟨waiting, hrepresents, ?_⟩
      simp [Access.perform, accepted, pushes, taken, Label.push?, Label.taken, hrefused]
  | pop =>
    cases waiting with
    | nil =>
      refine ⟨[], ?_, ?_⟩
      · simpa only [Access.perform, h.pop_nil] using h
      · simp [Access.perform, accepted, pushes, taken, Label.push?, Label.taken, h.pop_nil]
    | cons event left =>
      obtain ⟨hpopped, hrepresents⟩ := h.pop
      refine ⟨left, hrepresents, ?_⟩
      simp [Access.perform, accepted, pushes, taken, Label.push?, Label.taken, hpopped]
  | drain =>
    obtain ⟨hdrained, hrepresents⟩ := h.drain
    refine ⟨[], hrepresents, ?_⟩
    simp [Access.perform, accepted, pushes, taken, Label.push?, Label.taken, hdrained]
  | upsert id address now =>
    refine ⟨waiting, ?_, List.append_nil _⟩
    rw [Access.perform]
    split <;> exact h
  | recordFailure id =>
    refine ⟨waiting, ?_, List.append_nil _⟩
    rw [Access.perform]
    split <;> exact h
  | _ => exact ⟨waiting, h, List.append_nil _⟩

end AffineSwarm.Engine
