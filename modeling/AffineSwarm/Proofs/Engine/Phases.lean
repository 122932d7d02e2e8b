import AffineSwarm.Proofs.Engine.Hosting
import Mathlib.Order.Nat

/-!
# The phases of the network loop

The clock is tied to the last pass of housekeeping and to the last greeting (`Host.Phase`). In a
poll it stays below the deadline and one receive more, and the deadline is that of the next
greeting at the latest. After the poll the loop makes a pass at once.

So a pass is less than the poll timeout and one receive after the pass before it, and a greeting
is one interval after the greeting before it, or later by less than one receive
(`Host.Phase.step`).
-/

namespace AffineSwarm.Engine

variable {host host' : Host} {happening : Happening}
variable {begin : Nat} {lastPass lastGreeting : Option Nat}

-- ---------------------------------------------------------------------------
-- Passes and greetings
-- ---------------------------------------------------------------------------

/-- The time of a pass of housekeeping. -/
def Happening.pass? : Happening → Option Nat
  | .acted (.housekeeping _ now) => some now
  | _ => none

/-- The time of a periodic greeting. -/
def Happening.greeting? : Happening → Option Nat
  | .acted (.housekeeping true now) => some now
  | _ => none

-- ---------------------------------------------------------------------------
-- The phases of the loop
-- ---------------------------------------------------------------------------

def Wait.limit? : Wait → Option Nat
  | .none => .none
  | .receiving limit => some limit
  | .asleep limit => some limit

/-- The time up to which the clock may go on before the loop acts. -/
def Host.limit (host : Host) : Nat := host.wait.limit?.getD host.clock

/-- How the clock stands to the last pass and to the last greeting. -/
inductive Host.Phase (s : Setup) (begin : Nat) (host : Host) : Option Nat → Option Nat → Prop
  /-- The loop has done nothing yet. -/
  | fresh (stage : host.machine.stage ≠ .waiting) (wait : host.wait = .none)
      (clock : host.clock = begin) (next : host.schedule.nextHello = begin) :
      Phase s begin host none none
  /-- A pass has begun, and no poll after it. -/
  | upkeep {greeting : Nat} (stage : host.machine.stage = .waiting) (wait : host.wait = .none)
      (next : host.schedule.nextHello = greeting + s.helloInterval)
      (early : host.clock < host.schedule.nextHello) :
      Phase s begin host (some host.clock) (some greeting)
  /-- A poll has begun, and no pass after it. -/
  | poll {pass greeting : Nat} (next : host.schedule.nextHello = greeting + s.helloInterval)
      (soon : host.schedule.deadline ≤ host.schedule.nextHello)
      (patient : host.schedule.deadline ≤ pass + s.pollTimeout)
      (since : pass ≤ host.clock) (below : host.clock ≤ host.limit)
      (limited : host.limit < host.schedule.deadline + receiveSlice)
      (waiting : host.wait ≠ .none →
        host.machine.stage = .waiting ∧ host.machine.network = .done ())
      (acting : host.wait = .none → host.machine.stage ≠ .waiting) :
      Phase s begin host (some pass) (some greeting)

/-- A step that the loop does not take by itself moves it on only to its end. -/
theorem Label.IsTimeless.stage {label : Label} {now : Nat} {m m' : Machine}
    (h : label.IsTimeless now) (hstep : Engine.Step m label m') :
    (m'.stage = .waiting ↔ m.stage = .waiting) ∧
      (m.network = .done () → m'.network = .done ()) := by
  cases hstep with
  | housekeeping due now stage running idle => exact h.elim
  | receive datagram origin now stage idle => exact h.elim
  | lapse stage idle => exact h.elim
  | finish stage stopped idle => exact ⟨by simp [stage], id⟩
  | network socket work => exact ⟨Iff.rfl, fun hidle => by cases hidle.symm.trans work⟩
  | _ => exact ⟨Iff.rfl, id⟩

theorem Label.IsTimeless.pass?_eq {label : Label} {now : Nat} (h : label.IsTimeless now) :
    (Happening.acted label).pass? = none ∧ (Happening.acted label).greeting? = none := by
  cases label with
  | housekeeping due now => exact h.elim
  | _ => exact ⟨rfl, rfl⟩

theorem greeting?_pass (due : Bool) (now : Nat) :
    (Happening.acted (.housekeeping due now)).greeting? = if due then some now else none := by
  cases due <;> rfl

theorem receiveSlice_pos : 0 < receiveSlice := by decide

theorem Host.WaitsUntil.limit?_eq {limit : Nat} (h : host.WaitsUntil limit) :
    host.wait.limit? = some limit := by
  rcases h with ⟨hwait, -⟩ | hwait
  · rw [hwait, Wait.limit?]
  · rw [hwait, Wait.limit?]

theorem Host.WaitsUntil.wait_ne {limit : Nat} (h : host.WaitsUntil limit) :
    host.wait ≠ .none := by
  intro hnone
  have hlimit := h.limit?_eq
  rw [hnone] at hlimit
  cases hlimit

theorem Host.IsSilent.wait_ne (h : host.IsSilent) : host.wait ≠ .none := by
  rcases h with ⟨limit, hwait, -⟩ | hwait
  · rw [hwait]
    exact nofun
  · rw [hwait]
    exact nofun

namespace Host.Phase

variable {s : Setup}

/-- A phase is a matter of the clock and of what the loop does. -/
theorem keep (h : host.Phase s begin lastPass lastGreeting) {m : Machine} (inbox : List Arrival)
    (hstage : m.stage = .waiting ↔ host.machine.stage = .waiting)
    (hidle : host.machine.network = .done () → m.network = .done ()) :
    ({ host with machine := m, inbox } : Host).Phase s begin lastPass lastGreeting := by
  cases h with
  | fresh stage wait clock next => exact .fresh (hstage.not.mpr stage) wait clock next
  | upkeep stage wait next early => exact .upkeep (hstage.mpr stage) wait next early
  | poll next soon patient since below limited waiting acting =>
    refine .poll next soon patient since below limited (fun hwait => ?_) fun hwait =>
      hstage.not.mpr (acting hwait)
    exact ⟨hstage.mpr (waiting hwait).1, hidle (waiting hwait).2⟩

/-- The clock is never further from the last pass and from the last greeting than a wait and
one receive. -/
theorem clock_lt (h : host.Phase s begin lastPass lastGreeting) (hinterval : 0 < s.helloInterval)
    (htimeout : 0 < s.pollTimeout) :
    lastPass.getD begin ≤ host.clock ∧
      host.clock < lastPass.getD begin + s.pollTimeout + receiveSlice ∧
      host.clock < lastGreeting.getD begin + s.helloInterval + receiveSlice := by
  have hslice := receiveSlice_pos
  cases h with
  | fresh stage wait clock next =>
    simp only [Option.getD_none]
    omega
  | upkeep stage wait next early =>
    simp only [Option.getD_some]
    omega
  | poll next soon patient since below limited waiting acting =>
    simp only [Option.getD_some]
    omega

/-- Between a pass and the poll after it, no time passes. -/
theorem lastPass_eq (h : host.Phase s begin lastPass lastGreeting)
    (hstage : host.machine.stage = .waiting) (hwait : host.wait = .none) :
    lastPass = some host.clock := by
  cases h with
  | fresh stage => exact absurd hstage stage
  | upkeep => rfl
  | poll next soon patient since below limited waiting acting => exact absurd hstage (acting hwait)

/-- Unless the engine waits, the loop does. -/
theorem wait_eq (h : host.Phase s begin lastPass lastGreeting)
    (hstage : host.machine.stage ≠ .waiting) : host.wait = .none := by
  cases h with
  | fresh _ wait => exact wait
  | upkeep _ wait => exact wait
  | poll next soon patient since below limited waiting acting =>
    by_contra hne
    exact hstage (waiting hne).1

/-- Unless the loop is at work, it has nothing in hand. -/
theorem idle_of_wait (h : host.Phase s begin lastPass lastGreeting) (hwait : host.wait ≠ .none) :
    host.machine.network = .done () := by
  cases h with
  | fresh _ wait => exact absurd wait hwait
  | upkeep _ wait => exact absurd wait hwait
  | poll next soon patient since below limited waiting acting => exact (waiting hwait).2

/-- A pass greets everybody if the last greeting is an interval ago, and not before. -/
theorem pass (h : host.Phase s begin lastPass lastGreeting) (hsetup : host.setup = s)
    (hinterval : 0 < s.helloInterval) {m : Machine}
    (hstep : Engine.Step host.machine (.housekeeping host.due host.clock) m) :
    ({ host with machine := m, schedule := host.passed } : Host).Phase s begin (some host.clock)
        ((if host.due then some host.clock else none).or lastGreeting) ∧
      ∀ greeting ∈ lastGreeting, host.due = true → greeting + s.helloInterval ≤ host.clock := by
  cases hstep with
  | housekeeping due now stage running idle =>
    have hlater : host.clock < host.clock + s.helloInterval := Nat.lt_add_of_pos_right hinterval
    cases h with
    | fresh _ wait clock next =>
      have hdue : host.schedule.nextHello ≤ host.clock := by omega
      have hnext : host.passed.nextHello = host.clock + s.helloInterval :=
        (if_pos hdue).trans (by rw [hsetup])
      rw [Host.due, decide_eq_true hdue, if_pos rfl]
      exact ⟨.upkeep rfl wait hnext (hlater.trans_eq hnext.symm), nofun⟩
    | upkeep waiting => cases waiting.symm.trans stage
    | @poll pass greeting next soon patient since below limited waiting acting =>
      have hwait : host.wait = .none := by
        by_contra hne
        cases (waiting hne).1.symm.trans stage
      by_cases hdue : host.schedule.nextHello ≤ host.clock
      · have hnext : host.passed.nextHello = host.clock + s.helloInterval :=
          (if_pos hdue).trans (by rw [hsetup])
        rw [Host.due, decide_eq_true hdue, if_pos rfl]
        refine ⟨.upkeep rfl hwait hnext (hlater.trans_eq hnext.symm), ?_⟩
        rintro _ ⟨⟩ -
        omega
      · have hnext : host.passed.nextHello = host.schedule.nextHello := if_neg hdue
        rw [Host.due, decide_eq_false hdue, if_neg Bool.false_ne_true]
        refine ⟨.upkeep rfl hwait (hnext.trans next) ?_, nofun⟩
        exact (Nat.lt_of_not_le hdue).trans_eq hnext.symm

/-- The deadline of a poll is that of the next greeting, or the poll timeout from now. -/
theorem polled (h : host.Phase s begin lastPass lastGreeting) (hsetup : host.setup = s)
    (htimeout : 0 < s.pollTimeout) (hstage : host.machine.stage = .waiting)
    (hidle : host.machine.network = .done ()) (hwait : host.wait = .none) :
    ({ host with schedule := host.polling, wait := .receiving (host.clock + receiveSlice) } :
      Host).Phase s begin lastPass lastGreeting := by
  cases h with
  | fresh stage => exact absurd hstage stage
  | upkeep _ _ next early =>
    have hdeadline : host.polling.deadline =
        host.clock + min s.pollTimeout (host.schedule.nextHello - host.clock) := by
      rw [Host.polling, hsetup]
    refine .poll next ?_ ?_ le_rfl (Nat.le_add_right _ _) ?_ (fun _ => ⟨hstage, hidle⟩) nofun
    · show host.polling.deadline ≤ host.schedule.nextHello
      omega
    · show host.polling.deadline ≤ host.clock + s.pollTimeout
      omega
    · show host.clock + receiveSlice < host.polling.deadline + receiveSlice
      omega
  | poll next soon patient since below limited waiting acting => exact absurd hstage (acting hwait)

/-- In a poll, the loop may go on to wait for something else, or no longer. -/
theorem proceed (h : host.Phase s begin lastPass lastGreeting) (hwait : host.wait ≠ .none)
    (hschedule : host'.schedule = host.schedule) (hlater : host.clock ≤ host'.clock)
    (hbelow : host'.clock ≤ host'.limit)
    (hlimited : host.clock ≤ host.limit → host.limit < host.schedule.deadline + receiveSlice →
      host'.limit < host.schedule.deadline + receiveSlice)
    (hwaiting : host'.wait ≠ .none → host'.machine = host.machine)
    (hover : host'.wait = .none → host'.machine.stage ≠ .waiting) :
    host'.Phase s begin lastPass lastGreeting := by
  cases h with
  | fresh _ wait => exact absurd wait hwait
  | upkeep _ wait => exact absurd wait hwait
  | poll next soon patient since below limited waiting acting =>
    rw [← hschedule] at next soon patient
    refine .poll next soon patient (since.trans hlater) hbelow ?_ (fun hstill => ?_) hover
    · rw [hschedule]
      exact hlimited below limited
    · rw [hwaiting hstill]
      exact waiting hwait

/-- **The phases of the loop over a step.** A pass is less than the poll timeout and a receive
after the one before, and a greeting is an interval after the one before and less than a receive
late. -/
theorem step (h : host.Phase s begin lastPass lastGreeting) (hsetup : host.setup = s)
    (hinterval : 0 < s.helloInterval) (htimeout : 0 < s.pollTimeout)
    (hstep : Host.Step host happening host') :
    host'.Phase s begin (happening.pass?.or lastPass) (happening.greeting?.or lastGreeting) ∧
      (∀ pass ∈ lastPass, ∀ now ∈ happening.pass?,
        pass ≤ now ∧ now < pass + s.pollTimeout + receiveSlice) ∧
      ∀ greeting ∈ lastGreeting, ∀ now ∈ happening.greeting?,
        greeting + s.helloInterval ≤ now ∧
          now < greeting + s.helloInterval + receiveSlice := by
  have hlt := h.clock_lt hinterval htimeout
  cases hstep with
  | @work label m step timeless =>
    obtain ⟨hstage, hidle⟩ := timeless.stage step
    rw [timeless.pass?_eq.1, timeless.pass?_eq.2]
    exact ⟨h.keep host.inbox hstage hidle, nofun, nofun⟩
  | pass step =>
    obtain ⟨hnext, hgreeting⟩ := h.pass hsetup hinterval step
    rw [greeting?_pass]
    refine ⟨hnext, ?_, ?_⟩
    · rintro pass hpass _ ⟨⟩
      rw [Option.mem_def.mp hpass] at hlt
      exact ⟨hlt.1, hlt.2.1⟩
    · intro greeting hlast now hnow
      rw [Option.mem_def.mp hlast] at hlt
      cases hdue : host.due with
      | false =>
        rw [hdue] at hnow
        cases hnow
      | true =>
        rw [hdue] at hnow
        cases hnow
        exact ⟨hgreeting greeting hlast hdue, hlt.2.2⟩
  | poll stage idle wait => exact ⟨h.polled hsetup htimeout stage idle wait, nofun, nofun⟩
  | arrive arrival => exact ⟨h.keep _ Iff.rfl id, nofun, nofun⟩
  | receive wait inbox step =>
    refine ⟨h.proceed (by rw [wait]; exact nofun) rfl le_rfl le_rfl
      (fun hbelow hlimited => hbelow.trans_lt hlimited) (fun hne => absurd rfl hne) fun _ => ?_,
      nofun, nofun⟩
    cases step
    exact nofun
  | fail wait =>
    refine ⟨h.proceed (by rw [wait]; exact nofun) rfl le_rfl (Nat.le_add_right _ _) ?_
      (fun _ => rfl) nofun, nofun, nofun⟩
    intro hbelow hlimited
    show host.clock + host.nap < _
    rw [Host.nap]
    omega
  | @elapse limit now wait later within =>
    have hsame : ∀ now, ({ host with clock := now } : Host).limit = limit := fun now => by
      rw [Host.limit, wait.limit?_eq, Option.getD_some]
    refine ⟨h.proceed wait.wait_ne rfl (Nat.le_of_lt later) (within.trans_eq (hsame now).symm) ?_
      (fun _ => rfl) fun hnone => absurd hnone wait.wait_ne, nofun, nofun⟩
    intro _ hlimited
    rw [hsame now]
    exact (hsame host.clock).symm.trans_lt hlimited
  | retry silent running early =>
    refine ⟨h.proceed silent.wait_ne rfl le_rfl (Nat.le_add_right _ _)
      (fun _ _ => Nat.add_lt_add_right early _) (fun _ => rfl) nofun, nofun, nofun⟩
  | lapse silent expired step =>
    refine ⟨h.proceed silent.wait_ne rfl le_rfl le_rfl
      (fun hbelow hlimited => hbelow.trans_lt hlimited) (fun hne => absurd rfl hne) fun _ => ?_,
      nofun, nofun⟩
    cases step
    exact nofun

end Host.Phase

end AffineSwarm.Engine
