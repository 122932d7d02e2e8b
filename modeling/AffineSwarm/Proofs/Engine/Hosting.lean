import AffineSwarm.Engine.Clock
import AffineSwarm.Proofs.Engine.Uninterrupted

/-!
# An engine on its host

What happens on a host is a run of its engine (`Host.Run.machine`), so what holds of every run
of an engine holds on every host. And a host on which nobody interrupts the network loop does
what one wakeup after the other does to the schedule and the engine: a receive that brings a
datagram (`Host.Run.wake_datagram`), or one that does not (`Host.Run.wake_silence`).
-/

namespace AffineSwarm.Engine

variable {start host host' : Host} {happening : Happening} {happenings : List Happening}

-- ---------------------------------------------------------------------------
-- The run of the engine
-- ---------------------------------------------------------------------------

/-- The step that the engine takes, if it takes one. -/
def Happening.label? : Happening → Option Label
  | .acted label => some label
  | _ => none

/-- The steps of the engine. -/
def labelsOf (happenings : List Happening) : List Label := happenings.filterMap Happening.label?

/-- In one step of a host, its engine takes a step or stays as it is. -/
theorem Host.Step.machine (h : Host.Step host happening host') :
    (∃ label, happening = .acted label ∧ Engine.Step host.machine label host'.machine) ∨
      (happening.label? = none ∧ host'.machine = host.machine) := by
  cases h with
  | work step timeless => exact .inl ⟨_, rfl, step⟩
  | pass step => exact .inl ⟨_, rfl, step⟩
  | receive wait inbox step => exact .inl ⟨_, rfl, step⟩
  | lapse silent expired step => exact .inl ⟨_, rfl, step⟩
  | _ => exact .inr ⟨rfl, rfl⟩

theorem Host.Step.setup_eq (h : Host.Step host happening host') : host'.setup = host.setup := by
  rcases h.machine with ⟨_, -, hstep⟩ | ⟨-, hsame⟩
  · exact hstep.setup_eq
  · rw [Host.setup, hsame, Host.setup]

/-- What happens on a host is a run of its engine. -/
theorem Host.Run.machine (h : Host.Run start happenings host) :
    Engine.Run start.machine (labelsOf happenings) host.machine := by
  induction h with
  | nil => exact .nil
  | snoc _ hstep ih =>
    rw [labelsOf, filterMap_snoc]
    rcases hstep.machine with ⟨label, rfl, hmachine⟩ | ⟨hnone, hsame⟩
    · exact ih.snoc hmachine
    · rw [hnone, hsame, Option.toList_none, List.append_nil]
      exact ih

-- ---------------------------------------------------------------------------
-- Without interruption
-- ---------------------------------------------------------------------------

/-- The network loop makes the next access of what it has in hand. -/
theorem Host.Run.access (h : Host.Run start happenings host) (socket : Socket) {a : Access}
    {next : a.Answer → Routine Unit} (hwork : host.machine.network = .access a next) :
    Host.Run start
      (happenings ++
        [.acted (.performed .network ⟨a, (a.perform socket host.machine.engine).1⟩)])
      { host with
        machine := { host.machine with
          engine := (a.perform socket host.machine.engine).2
          network := next (a.perform socket host.machine.engine).1 } } :=
  h.snoc (.work (.network socket hwork) trivial)

/-- Work of the network loop that nobody interrupts takes no time. -/
theorem Host.Run.work (h : Host.Run start happenings host) (socket : Socket) :
    ∃ more, Host.Run start (happenings ++ more)
      { host with
        machine := { host.machine with
          engine := (host.machine.network.run socket host.machine.engine).2
          network := .done () } } := by
  obtain ⟨⟨e, stage, network, calls⟩, clock, schedule, wait, inbox⟩ := host
  induction network generalizing e happenings with
  | done result => exact ⟨[], by rwa [List.append_nil]⟩
  | access a next ih =>
    obtain ⟨more, hrun⟩ := ih _ _ (h.access socket rfl)
    exact ⟨_ :: more, by rwa [List.append_assoc] at hrun⟩

/-- A pass of housekeeping that nobody interrupts, and the poll that begins after it. -/
theorem Host.Run.housekeeping (h : Host.Run start happenings host)
    (hstage : host.machine.stage = .looking) (hrunning : host.machine.engine.running = true)
    (hidle : host.machine.network = .done ()) (hwait : host.wait = .none) (socket : Socket) :
    ∃ more limit, Host.Run start (happenings ++ more)
      { host with
        machine := { host.machine with
          engine := (Engine.housekeeping socket host.clock host.schedule host.machine.engine).2
          stage := .waiting }
        schedule := (Engine.housekeeping socket host.clock host.schedule host.machine.engine).1
        wait := .receiving limit } := by
  obtain ⟨⟨e, stage, network, calls⟩, clock, schedule, wait, inbox⟩ := host
  cases hstage
  cases hidle
  cases hwait
  have hpass := h.snoc (.pass (.housekeeping _ _ rfl hrunning rfl))
  obtain ⟨more, hwork⟩ := hpass.work socket
  have hpoll := hwork.snoc (.poll rfl rfl rfl)
  rw [List.append_assoc, List.append_assoc] at hpoll
  exact ⟨_, _, hpoll⟩

/-- No datagram stops an engine. -/
theorem running_handleDatagram (e : Engine) (socket : Socket) (datagram : List UInt8)
    (origin : Address) (now : Nat) :
    (e.handleDatagram socket datagram origin now).running = e.running := by
  have hhandle : (handle e.setup datagram origin now).All (· ≠ .halt) := by
    refine (all_handle e.setup datagram origin now).mono ?_
    rintro _ h rfl
    rcases h with ⟨_, hcount⟩ | ⟨m, -, -, hreacts⟩
    · cases hcount
    · cases m <;> simp [Reacts, Sending] at hreacts
  exact hhandle.run_eq Engine.running (fun e _ ha => running_perform_eq socket e ha) e

/-- **A receive without a datagram is a silent wakeup.** If nobody interrupts the network loop,
it does to the schedule and the engine what `wake` says. -/
theorem Host.Run.wake_silence (h : Host.Run start happenings host) {limit : Nat}
    (hstage : host.machine.stage = .waiting) (hrunning : host.machine.engine.running = true)
    (hidle : host.machine.network = .done ()) (hwait : host.wait = .receiving limit)
    (hinbox : host.inbox = []) (socket : Socket) :
    ∃ more limit, Host.Run start (happenings ++ more)
      { host with
        machine := { host.machine with
          engine := (wake socket host.clock .silence host.schedule host.machine.engine).2 }
        schedule := (wake socket host.clock .silence host.schedule host.machine.engine).1
        wait := .receiving limit } := by
  obtain ⟨⟨e, stage, network, calls⟩, clock, schedule, wait, inbox⟩ := host
  cases hstage
  cases hidle
  cases hwait
  cases hinbox
  have hsilent : Host.IsSilent
      ⟨⟨e, .waiting, .done (), calls⟩, clock, schedule, .receiving limit, []⟩ :=
    .inl ⟨limit, rfl, rfl⟩
  have hrunning : e.running = true := hrunning
  rw [wake, hrunning, Bool.not_true, if_neg Bool.false_ne_true]
  by_cases hover : schedule.deadline ≤ clock
  · simp only [if_pos hover]
    have hlapse := h.snoc (.lapse hsilent (.inr hover) (.lapse rfl rfl))
    obtain ⟨more, limit', hnext⟩ := hlapse.housekeeping rfl hrunning rfl rfl socket
    exact ⟨_ :: more, limit', by rwa [List.append_assoc] at hnext⟩
  · simp only [if_neg hover]
    exact ⟨[.retried], _, h.snoc (.retry hsilent hrunning (Nat.lt_of_not_le hover))⟩

/-- **A receive with a datagram is a wakeup with it.** If nobody interrupts the network loop, it
does to the schedule and the engine what `wake` says. -/
theorem Host.Run.wake_datagram (h : Host.Run start happenings host) {limit : Nat}
    {datagram : List UInt8} {origin : Address} {rest : List Arrival}
    (hstage : host.machine.stage = .waiting) (hrunning : host.machine.engine.running = true)
    (hidle : host.machine.network = .done ()) (hwait : host.wait = .receiving limit)
    (hinbox : host.inbox = (datagram, origin) :: rest) (socket : Socket) :
    ∃ more limit, Host.Run start (happenings ++ more)
      { host with
        machine := { host.machine with
          engine := (wake socket host.clock (.datagram datagram origin) host.schedule
            host.machine.engine).2 }
        schedule := (wake socket host.clock (.datagram datagram origin) host.schedule
            host.machine.engine).1
        wait := .receiving limit
        inbox := rest } := by
  obtain ⟨⟨e, stage, network, calls⟩, clock, schedule, wait, inbox⟩ := host
  cases hstage
  cases hidle
  cases hwait
  cases hinbox
  have hrunning : e.running = true := hrunning
  rw [wake, hrunning, Bool.not_true, if_neg Bool.false_ne_true]
  have hreceive := h.snoc (.receive rfl rfl (.receive datagram origin clock rfl rfl))
  obtain ⟨more, hhandled⟩ := hreceive.work socket
  have hstill : (e.handleDatagram socket datagram origin clock).running = true :=
    (running_handleDatagram ..).trans hrunning
  obtain ⟨more', limit', hnext⟩ := hhandled.housekeeping rfl hstill rfl rfl socket
  exact ⟨_ :: (more ++ more'), limit', by rwa [List.append_assoc, List.append_assoc] at hnext⟩

end AffineSwarm.Engine
