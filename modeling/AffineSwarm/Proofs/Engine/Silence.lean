import AffineSwarm.Proofs.Engine.Chores
import AffineSwarm.Proofs.Engine.Phases

/-!
# How long neighbors have been silent

What has been looked through at some time holds no neighbor that had been silent for too long
at that time (`FreshAt`), and credits that come later are later. So the table is as fresh as at
the last pass of housekeeping (`Host.Swept`), and no neighbor has been silent for longer than
that and the time since the pass (`Host.Swept.clock_lt`).
-/

namespace AffineSwarm.Engine

variable {host host' : Host} {happening : Happening}
variable {begin : Nat} {lastPass lastGreeting : Option Nat}

-- ---------------------------------------------------------------------------
-- Fresh tables
-- ---------------------------------------------------------------------------

/-- At that time, no neighbor in the table had been silent for too long. -/
def FreshAt (staleAfter time : Nat) (t : Neighbor.Table) : Prop :=
  ∀ n ∈ t.entries, time ≤ n.lastSeen + staleAfter

theorem freshAt_evictStale (t : Neighbor.Table) (now staleAfter : Nat) :
    FreshAt staleAfter now (t.evictStale now staleAfter).2 := by
  intro n hn
  have hstale := (List.mem_filter.mp hn).2
  simp only [Neighbor.isStale, Bool.not_eq_true', decide_eq_false_iff_not] at hstale
  omega

theorem FreshAt.modifyFirst {staleAfter time capacity : Nat} {entries : List Neighbor}
    (h : FreshAt staleAfter time ⟨capacity, entries⟩) (test : Neighbor → Bool)
    {change : Neighbor → Neighbor}
    (hchange : ∀ n, time ≤ n.lastSeen + staleAfter → time ≤ (change n).lastSeen + staleAfter) :
    FreshAt staleAfter time ⟨capacity, Neighbor.Table.modifyFirst test change entries⟩ := by
  induction entries with
  | nil => exact h
  | cons n rest ih =>
    obtain ⟨hfirst, hrest⟩ := List.forall_mem_cons.mp h
    rw [Neighbor.Table.modifyFirst]
    split
    · exact List.forall_mem_cons.mpr ⟨hchange n hfirst, hrest⟩
    · exact List.forall_mem_cons.mpr ⟨hfirst, ih hrest⟩

/-- An access that credits a node with what the clock shows leaves no neighbor silent for
longer. -/
theorem FreshAt.perform {staleAfter time now : Nat} {e : Engine}
    (h : FreshAt staleAfter time e.neighbors) {a : Access} (hreads : a.ReadsClock now)
    (hlater : time ≤ now) (socket : Socket) :
    FreshAt staleAfter time (a.perform socket e).2.neighbors := by
  cases a with
  | upsert id address now' =>
    cases hreads
    rcases e.neighbors.upsert_cases id address now with ⟨-, hok⟩ | ⟨-, -, hfull⟩ | ⟨-, -, hok⟩
    · rw [Access.perform, hok]
      exact h.modifyFirst _ fun n _ => Nat.le_add_right_of_le hlater
    · rw [Access.perform, hfull]
      exact h
    · rw [Access.perform, hok]
      refine List.forall_mem_append.mpr ⟨h, List.forall_mem_singleton.mpr ?_⟩
      exact Nat.le_add_right_of_le hlater
  | touch address now' =>
    cases hreads
    exact h.modifyFirst _ fun n _ => Nat.le_add_right_of_le hlater
  | recordFailure id =>
    rcases e.neighbors.recordFailure_cases id with ⟨-, hnone⟩ | ⟨count, hok⟩
    · rw [Access.perform, hnone]
      exact h
    · rw [Access.perform, hok]
      exact h.modifyFirst _ fun n hn => hn
  | evict now' staleAfter' => exact fun n hn => h n (List.mem_filter.mp hn).1
  | _ => exact h

-- ---------------------------------------------------------------------------
-- When the table was looked through
-- ---------------------------------------------------------------------------

/-- The chore is one of a datagram that is received now, or comes after an eviction. -/
def Chore.Follows (now : Nat) : Chore → Prop
  | .upsert _ _ time | .touch _ time => time = now
  | .evict _ _ => False
  | .tally _ => True

theorem follows_creditChore? (s : Setup) (datagram : List UInt8) (origin : Address)
    (now : Nat) : ∀ chore ∈ creditChore? s datagram origin now, chore.Follows now := by
  intro chore hchore
  unfold creditChore? at hchore
  split at hchore
  · split at hchore <;> cases hchore
    rfl
  · split at hchore <;> cases hchore
    rfl
  · cases hchore
    rfl
  · cases hchore

theorem Aside.readsClock {a : Access} (h : Aside a) (now : Nat) : a.ReadsClock now := by
  cases a with
  | upsert id address time => exact h.elim
  | touch address time => exact h.elim
  | evict time staleAfter => exact h.elim
  | _ => trivial

/-- When the table was looked through for silent neighbors, and what the loop has in hand. -/
inductive Host.Swept (s : Setup) (begin : Nat) (lastPass : Option Nat) (host : Host) : Prop
  /-- The table is about to be looked through, and was not long ago. -/
  | sweeping {time : Nat} (stage : host.machine.stage = .waiting) (wait : host.wait = .none)
      (leads : host.machine.network.Leads none (some (.evict host.clock s.staleAfter)))
      (fresh : FreshAt s.staleAfter time host.machine.engine.neighbors)
      (since : time ≤ host.clock) (soon : host.clock < time + s.pollTimeout + receiveSlice)
  /-- The table was looked through in the last pass. -/
  | swept {due : Option Chore} (leads : host.machine.network.Leads none due)
      (follows : ∀ chore ∈ due, chore.Follows host.clock)
      (fresh : FreshAt s.staleAfter (lastPass.getD begin) host.machine.engine.neighbors)

namespace Host.Swept

variable {s : Setup}

/-- An access of the network loop, in the time of its host. -/
theorem network (h : host.Swept s begin lastPass)
    (hphase : host.Phase s begin lastPass lastGreeting) (hlast : lastPass.getD begin ≤ host.clock)
    {a : Access} {next : a.Answer → Routine Unit} (socket : Socket)
    (hwork : host.machine.network = .access a next) :
    ({ host with
        machine := { host.machine with
          engine := (a.perform socket host.machine.engine).2
          network := next (a.perform socket host.machine.engine).1 } } : Host).Swept
      s begin lastPass := by
  cases h with
  | sweeping stage wait leads fresh since soon =>
    rw [hwork] at leads
    obtain ⟨due', hafter, hnext⟩ := leads (a.perform socket host.machine.engine).1
    rcases Chore.after_cases hafter with ⟨haside, rfl⟩ | ⟨_, _, _, -, hdue, -⟩ |
      ⟨_, _, -, hdue, -⟩ | ⟨_, _, _, rfl, hdue, rfl⟩ | ⟨_, -, hdue, -⟩
    · exact .sweeping stage wait hnext (fresh.perform (haside.readsClock _) since socket) since soon
    · cases hdue
    · cases hdue
    · cases hdue
      refine .swept hnext (by rintro _ ⟨⟩; trivial) ?_
      rw [hphase.lastPass_eq stage wait]
      exact freshAt_evictStale _ _ _
    · cases hdue
  | swept leads follows fresh =>
    rw [hwork] at leads
    obtain ⟨due', hafter, hnext⟩ := leads (a.perform socket host.machine.engine).1
    rcases Chore.after_cases hafter with ⟨haside, rfl⟩ | ⟨id, address, now, rfl, rfl, rfl⟩ |
      ⟨address, now, rfl, rfl, rfl⟩ | ⟨_, _, _, -, rfl, -⟩ | ⟨_, rfl, rfl, rfl⟩
    · exact .swept hnext follows (fresh.perform (haside.readsClock _) hlast socket)
    · have hreads : (Access.upsert id address now).ReadsClock host.clock := follows _ rfl
      exact .swept hnext nofun (fresh.perform hreads hlast socket)
    · have hreads : (Access.touch address now).ReadsClock host.clock := follows _ rfl
      exact .swept hnext nofun (fresh.perform hreads hlast socket)
    · exact (follows _ rfl).elim
    · exact .swept hnext nofun fresh

/-- What happens meanwhile, without the loop, leaves no neighbor silent for longer. -/
theorem keep (h : host.Swept s begin lastPass) (hlast : lastPass.getD begin ≤ host.clock)
    {m : Machine} (inbox : List Arrival)
    (hstage : m.stage = .waiting ↔ host.machine.stage = .waiting)
    (hnetwork : m.network = host.machine.network)
    (hfresh : ∀ time ≤ host.clock, FreshAt s.staleAfter time host.machine.engine.neighbors →
      FreshAt s.staleAfter time m.engine.neighbors) :
    ({ host with machine := m, inbox } : Host).Swept s begin lastPass := by
  cases h with
  | sweeping stage wait leads fresh since soon =>
    rw [← hnetwork] at leads
    exact .sweeping (hstage.mpr stage) wait leads (hfresh _ since fresh) since soon
  | swept leads follows fresh =>
    rw [← hnetwork] at leads
    exact .swept leads follows (hfresh _ hlast fresh)

/-- A loop with nothing in hand has looked through the table in the last pass. -/
theorem idle (h : host.Swept s begin lastPass) (hidle : host.machine.network = .done ()) :
    FreshAt s.staleAfter (lastPass.getD begin) host.machine.engine.neighbors := by
  cases h with
  | sweeping stage wait leads =>
    rw [hidle] at leads
    cases leads
  | swept leads follows fresh => exact fresh

/-- While the loop has nothing in hand, the table stays as it was looked through. -/
theorem rest (h : host.Swept s begin lastPass) (hidle : host.machine.network = .done ())
    (hstill : host'.machine.network = .done ())
    (hneighbors : host'.machine.engine.neighbors = host.machine.engine.neighbors) :
    host'.Swept s begin lastPass := by
  have hleads : host'.machine.network.Leads none none := by
    rw [hstill]
    rfl
  refine .swept hleads nofun ?_
  rw [hneighbors]
  exact h.idle hidle

/-- **How long the neighbors have been silent, over a step.** -/
theorem step (h : host.Swept s begin lastPass)
    (hphase : host.Phase s begin lastPass lastGreeting) (hsetup : host.setup = s)
    (hinterval : 0 < s.helloInterval) (htimeout : 0 < s.pollTimeout)
    (hstep : Host.Step host happening host') :
    host'.Swept s begin (happening.pass?.or lastPass) := by
  obtain ⟨hlast, hsoon, -⟩ := hphase.clock_lt hinterval htimeout
  cases hstep with
  | work step timeless =>
    rw [timeless.pass?_eq.1, Option.none_or]
    cases step with
    | housekeeping due now stage running idle => exact timeless.elim
    | receive datagram origin now stage idle => exact timeless.elim
    | lapse stage idle => exact timeless.elim
    | finish stage stopped idle => exact h.rest idle idle rfl
    | call c => exact h.keep hlast _ Iff.rfl rfl fun _ _ => id
    | leave calls join => exact h.keep hlast _ Iff.rfl rfl fun _ _ => id
    | network socket work => exact h.network hphase hlast socket work
    | application socket calls =>
      exact h.keep hlast _ Iff.rfl rfl fun _ hlater hfresh => hfresh.perform timeless hlater socket
  | pass step =>
    cases step with
    | housekeeping due now stage running idle =>
      have hwait := hphase.wait_eq (by rw [stage]; exact nofun)
      have hleads := leads_upkeep host.setup host.due host.clock
      refine .sweeping rfl hwait ?_ (h.idle idle) hlast hsoon
      rw [← hsetup]
      exact hleads
  | poll stage idle wait => exact h.rest idle idle rfl
  | arrive arrival => exact h.keep hlast _ Iff.rfl rfl fun _ _ => id
  | @receive limit arrival rest m wait inbox step =>
    cases step with
    | receive datagram origin now stage idle =>
      have hleads := leads_handle host.setup arrival.1 arrival.2 host.clock
      have hfollows := follows_creditChore? host.setup arrival.1 arrival.2 host.clock
      exact .swept hleads hfollows (h.idle idle)
  | fail wait =>
    have hidle := hphase.idle_of_wait (by rw [wait]; exact nofun)
    exact h.rest hidle hidle rfl
  | elapse wait later within =>
    have hidle := hphase.idle_of_wait wait.wait_ne
    exact h.rest hidle hidle rfl
  | retry silent running early =>
    have hidle := hphase.idle_of_wait silent.wait_ne
    exact h.rest hidle hidle rfl
  | lapse silent expired step =>
    cases step with
    | lapse stage idle => exact h.rest idle idle rfl

/-- No neighbor has been silent for longer than allowed at the last pass, and since then no
longer than a poll takes. -/
theorem clock_lt (h : host.Swept s begin lastPass)
    (hphase : host.Phase s begin lastPass lastGreeting) (hinterval : 0 < s.helloInterval)
    (htimeout : 0 < s.pollTimeout) {n : Neighbor}
    (hn : n ∈ host.machine.engine.neighbors.entries) :
    host.clock < n.lastSeen + s.staleAfter + s.pollTimeout + receiveSlice := by
  obtain ⟨-, hsoon, -⟩ := hphase.clock_lt hinterval htimeout
  cases h with
  | sweeping _ _ _ fresh since soon =>
    have hseen := fresh n hn
    omega
  | swept _ _ fresh =>
    have hseen := fresh n hn
    omega

end Host.Swept

end AffineSwarm.Engine
