import AffineSwarm.Proofs.Engine.History
import AffineSwarm.Proofs.Engine.Accesses
import AffineSwarm.Proofs.Neighbor.Table

/-!
# What a step can do

Every step of an engine either makes one access to what the threads share, or leaves what
is shared as it is (`Step.engine_cases`). The work that its threads have left is what they
had, less the access that was made, or it is a routine that begins. So what is true of all
accesses of the routines that may begin is true of every access that is made
(`Step.obeys`).
-/

namespace AffineSwarm.Engine

variable {m m' : Machine} {label : Label}

/-- A step makes one access, or it does not touch what is shared. -/
theorem Step.engine_cases (h : Step m label m') :
    (m'.engine = m.engine ∧ ∀ thread p, label ≠ .performed thread p) ∨
    ∃ thread a socket, label = .performed thread ⟨a, (a.perform socket m.engine).1⟩ ∧
      m'.engine = (a.perform socket m.engine).2 := by
  cases h with
  | network socket work => exact .inr ⟨.network, _, socket, rfl, rfl⟩
  | @application before after c a next socket hcalls =>
    exact .inr ⟨.application c, a, socket, rfl, rfl⟩
  | _ => exact .inl ⟨rfl, by rintro _ _ ⟨⟩⟩

theorem Step.setup_eq (h : Step m label m') : m'.engine.setup = m.engine.setup := by
  rcases h.engine_cases with ⟨hengine, -⟩ | ⟨thread, a, socket, -, hengine⟩
  · rw [hengine]
  · rw [hengine, setup_perform]

/-- Only a call to stop changes whether the engine runs. -/
theorem running_perform_eq (socket : Socket) (e : Engine) {a : Access} (h : a ≠ .halt) :
    (a.perform socket e).2.running = e.running := by
  cases a with
  | upsert id address now =>
    rw [Access.perform]
    split <;> rfl
  | recordFailure id =>
    rw [Access.perform]
    split <;> rfl
  | halt => exact absurd rfl h
  | _ => rfl

/-- What an access does to the table: nothing to the nodes it has, unless it enters a new
one for which there is room, or evicts. -/
theorem perform_ids (socket : Socket) (e : Engine) (a : Access) :
    (a.perform socket e).2.neighbors.capacity = e.neighbors.capacity ∧
    ((a.perform socket e).2.neighbors.ids = e.neighbors.ids ∨
      (∃ id address now, a = .upsert id address now ∧
        e.neighbors.length < e.neighbors.capacity ∧
        (a.perform socket e).2.neighbors.ids = e.neighbors.ids ++ [id]) ∨
      (∃ now staleAfter, a = .evict now staleAfter ∧
        (a.perform socket e).2.neighbors.ids.Sublist e.neighbors.ids)) := by
  cases a with
  | upsert id address now =>
    rw [Access.perform]
    rcases e.neighbors.upsert_cases id address now with ⟨-, hok⟩ | ⟨-, -, hfull⟩ | ⟨-, hroom, hok⟩
    · rw [hok]
      exact ⟨rfl, .inl (Neighbor.Table.ids_upsert hok)⟩
    · rw [hfull]
      exact ⟨rfl, .inl rfl⟩
    · rw [hok]
      exact ⟨rfl, .inr (.inl ⟨id, address, now, rfl, hroom, Neighbor.Table.ids_upsert hok⟩)⟩
  | touch address now => exact ⟨rfl, .inl (e.neighbors.ids_touch address now)⟩
  | recordFailure id =>
    rw [Access.perform]
    split
    · rename_i hok
      exact ⟨(Neighbor.Table.seats_recordFailure hok).2,
        .inl (Neighbor.Table.ids_recordFailure hok)⟩
    · exact ⟨rfl, .inl rfl⟩
  | evict now staleAfter =>
    exact ⟨rfl, .inr (.inr ⟨now, staleAfter, rfl, List.filter_sublist.map _⟩)⟩
  | _ => exact ⟨rfl, .inl rfl⟩

/-- Whatever its threads have left to do, all accesses of it are allowed. -/
structure Machine.Obeys (allowed : Access → Prop) (m : Machine) : Prop where
  network : m.network.All allowed
  calls : ∀ c ∈ m.calls, c.rest.All allowed

theorem Machine.obeys_starting (allowed : Access → Prop) (e : Engine) :
    (Machine.starting e).Obeys allowed := ⟨trivial, nofun⟩

/-- If the routines that may begin make allowed accesses only, so does every step, and
nothing else is left to do after it. -/
theorem Step.obeys {allowed : Access → Prop} (h : Step m label m') (hm : m.Obeys allowed)
    (hupkeep : ∀ due now, (upkeep m.engine.setup due now).All allowed)
    (hhandle : ∀ datagram origin now,
      (handle m.engine.setup datagram origin now).All allowed)
    (hcall : ∀ c, label = .called c → (c.begun m.engine).All allowed) :
    m'.Obeys allowed ∧ ∀ thread p, label = .performed thread p → allowed p.access := by
  obtain ⟨hnetwork, hcalls⟩ := hm
  cases h with
  | housekeeping due now stage running idle => exact ⟨⟨hupkeep due now, hcalls⟩, by rintro _ _ ⟨⟩⟩
  | receive datagram origin now stage idle =>
    exact ⟨⟨hhandle datagram origin now, hcalls⟩, by rintro _ _ ⟨⟩⟩
  | lapse stage idle => exact ⟨⟨hnetwork, hcalls⟩, by rintro _ _ ⟨⟩⟩
  | finish stage stopped idle => exact ⟨⟨hnetwork, hcalls⟩, by rintro _ _ ⟨⟩⟩
  | call c =>
    refine ⟨⟨hnetwork, fun c' hc' => ?_⟩, by rintro _ _ ⟨⟩⟩
    rcases List.mem_append.mp hc' with hold | hnew
    · exact hcalls c' hold
    · cases List.mem_singleton.mp hnew
      exact hcall c rfl
  | leave hpending join =>
    exact ⟨⟨hnetwork, forall_mem_remove (hpending ▸ hcalls)⟩, by rintro _ _ ⟨⟩⟩
  | network socket work =>
    rw [work] at hnetwork
    refine ⟨⟨hnetwork.2 _, hcalls⟩, ?_⟩
    rintro _ _ ⟨⟩
    exact hnetwork.1
  | @application before after c a next socket hpending =>
    have hall := hcalls _ (hpending ▸ List.mem_append_cons_self)
    refine ⟨⟨hnetwork, forall_mem_replace (hpending ▸ hcalls) (hall.2 _)⟩, ?_⟩
    rintro _ _ ⟨⟩
    exact hall.1

end AffineSwarm.Engine
