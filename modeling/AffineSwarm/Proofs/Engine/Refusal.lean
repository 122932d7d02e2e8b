import AffineSwarm.Engine.Turn
import AffineSwarm.Proofs.Engine.Replies
import AffineSwarm.Proofs.Engine.Uninterrupted

/-!
# Calls that fail

A call is given with its reply (`Call.begunReply`): its accesses are those of the call as the
threads make it (`begun_eq`), and without interruption it gives the reply and the engine of
`Call.make` (`run_begunReply`).

As long as a call may still fail, the only thing that it does is to be turned away by the full
table (`Routine.FailsCleanly`). So a call that gives back an error has changed nothing, neither
when nobody interrupts it (`FailsCleanly.run_eq`) nor when other threads do
(`FailsCleanly.trace`). Which calls fail, and with what error, is `Call.Fails`.
-/

namespace AffineSwarm.Engine

variable {α β γ ε : Type}

-- ---------------------------------------------------------------------------
-- Calls with their replies
-- ---------------------------------------------------------------------------

/-- The accesses of a call, and what it gives back. -/
def Call.reply (s : Setup) : Call → Routine (Except SwarmError Reply)
  | .sendHello => do
    let frames ← announce s
    return .ok (.sent frames)
  | .addStaticNeighbor address id now => do
    let outcome ← introduce s address id now
    return outcome.map fun () => .added
  | .sendToRandom rand formula => do
    let id ← share s rand formula
    return .ok (.chosen id)
  | .sendToAll formula => do
    let frames ← shareWithAll s formula
    return .ok (.sent frames)
  | .nextEvent => do
    let event ← Routine.of .pop
    return .ok (.next event)
  | .drainEvents => do
    let events ← Routine.of .drain
    return .ok (.drained events)
  | .stop => do
    Routine.of .halt
    return .ok .stopped

/-- A call that begins, with its reply. If it is refused, that is all. -/
def Call.begunReply (e : Engine) (c : Call) : Routine (Except SwarmError Reply) :=
  if c.sends && !e.running then .done (.error .notRunning) else c.reply e.setup

theorem bind_assoc (r : Routine α) (f : α → Routine β) (g : β → Routine γ) :
    r >>= f >>= g = r >>= fun x => f x >>= g := by
  induction r with
  | done result => rfl
  | access a next ih => exact congrArg (Routine.access a) (funext ih)

theorem bind_forget (r : Routine α) (f : α → β) :
    (r >>= fun x => pure (f x)) >>= (fun _ => pure ()) = r >>= fun _ => pure () :=
  bind_assoc r (fun x => pure (f x)) fun _ => pure ()

/-- The threads make the accesses of a call and forget its reply. -/
theorem begun_eq (e : Engine) (c : Call) : c.begun e = c.begunReply e >>= fun _ => pure () := by
  rw [Call.begun, Call.begunReply]
  split
  · rfl
  · cases c with
    | stop => rfl
    | _ => exact (bind_forget _ _).symm

-- ---------------------------------------------------------------------------
-- Failing without a trace
-- ---------------------------------------------------------------------------

/-- The table had no room for a new node. -/
def Performed.TurnedAway : Performed → Prop
  | ⟨.upsert _ _ _, .error _⟩ => True
  | _ => False

/-- Whom the table turns away leaves the engine as it is. -/
theorem Performed.TurnedAway.perform_eq {a : Access} {socket : Socket} {e : Engine}
    (h : Performed.TurnedAway ⟨a, (a.perform socket e).1⟩) : (a.perform socket e).2 = e := by
  cases a with
  | upsert id address now =>
    rw [Access.perform] at h ⊢
    cases hupsert : e.neighbors.upsert id address now with
    | ok result =>
      rw [hupsert] at h
      exact h.elim
    | error error => rfl
  | _ => exact h.elim

namespace Routine

/-- Whatever its accesses give, the result is no error. -/
def Succeeds : Routine (Except ε α) → Prop
  | .done result => ∃ a, result = .ok a
  | .access _ next => ∀ answer, (next answer).Succeeds

/-- As long as the routine may fail, it is turned away and does nothing else. -/
def FailsCleanly : Routine (Except ε α) → Prop
  | .done _ => True
  | .access a next => ∀ answer,
    (next answer).Succeeds ∨ (Performed.TurnedAway ⟨a, answer⟩ ∧ (next answer).FailsCleanly)

theorem succeeds_bind {r : Routine β} {rest : β → Routine (Except ε α)}
    (h : ∀ x, (rest x).Succeeds) : (r >>= rest).Succeeds := by
  induction r with
  | done result => exact h result
  | access a next ih => exact ih

theorem succeeds_reply (r : Routine β) (f : β → α) :
    (r >>= fun x => pure (.ok (f x)) : Routine (Except ε α)).Succeeds :=
  succeeds_bind fun x => ⟨f x, rfl⟩

/-- What follows a routine that succeeds has no error to pass on. -/
theorem Succeeds.bind {r : Routine (Except ε β)} {rest : Except ε β → Routine (Except ε α)}
    (h : r.Succeeds) (hrest : ∀ b, (rest (.ok b)).Succeeds) : (r >>= rest).Succeeds := by
  induction r with
  | done result =>
    obtain ⟨b, rfl⟩ := h
    exact hrest b
  | access a next ih => exact fun answer => ih answer (h answer)

theorem Succeeds.failsCleanly {r : Routine (Except ε α)} (h : r.Succeeds) : r.FailsCleanly := by
  cases r with
  | done result => trivial
  | access a next => exact fun answer => .inl (h answer)

theorem Succeeds.run_ne {r : Routine (Except ε α)} (h : r.Succeeds) (socket : Socket)
    (e : Engine) (error : ε) : (r.run socket e).1 ≠ .error error := by
  induction r generalizing e with
  | done result =>
    obtain ⟨a, rfl⟩ := h
    exact nofun
  | access a next ih => exact ih _ (h _) _

theorem Succeeds.trace_ne {r left : Routine (Except ε α)} (h : r.Succeeds)
    {made : List Performed} (htrace : r.Trace made left) (error : ε) :
    left ≠ .done (.error error) := by
  induction htrace with
  | nil r =>
    rintro rfl
    obtain ⟨a, ha⟩ := h
    cases ha
  | cons _ ih => exact ih (h _)

/-- A routine that ends in an error has left everything as it was. -/
theorem FailsCleanly.run_eq {r : Routine (Except ε α)} (h : r.FailsCleanly) {socket : Socket}
    {e : Engine} {error : ε} (herror : (r.run socket e).1 = .error error) :
    (r.run socket e).2 = e := by
  induction r generalizing e with
  | done result => rfl
  | access a next ih =>
    rcases h (a.perform socket e).1 with hsucceeds | ⟨haway, hclean⟩
    · exact (hsucceeds.run_ne _ _ error herror).elim
    · exact (ih _ hclean herror).trans haway.perform_eq

/-- Whatever other threads do between its accesses, a routine that ends in an error was turned
away by all of them. -/
theorem FailsCleanly.trace {r left : Routine (Except ε α)} (h : r.FailsCleanly)
    {made : List Performed} (htrace : r.Trace made left) {error : ε}
    (herror : left = .done (.error error)) : ∀ p ∈ made, p.TurnedAway := by
  induction htrace with
  | nil r => nofun
  | cons htail ih =>
    rcases h _ with hsucceeds | ⟨haway, hclean⟩
    · exact absurd herror (hsucceeds.trace_ne htail error)
    · exact List.forall_mem_cons.mpr ⟨haway, ih hclean herror⟩

end Routine

open Routine (succeeds_reply)

/-- Only to add a static neighbor may fail. -/
theorem succeeds_or_adds (s : Setup) (c : Call) : (c.reply s).Succeeds ∨
    ∃ address id now, c = .addStaticNeighbor address id now := by
  cases c with
  | sendHello => exact .inl (succeeds_reply (announce s) Reply.sent)
  | addStaticNeighbor address id now => exact .inr ⟨address, id, now, rfl⟩
  | sendToRandom rand formula => exact .inl (succeeds_reply (share s rand formula) Reply.chosen)
  | sendToAll formula => exact .inl (succeeds_reply (shareWithAll s formula) Reply.sent)
  | nextEvent => exact .inl (succeeds_reply (.of .pop) Reply.next)
  | drainEvents => exact .inl (succeeds_reply (.of .drain) Reply.drained)
  | stop => exact .inl (succeeds_reply (.of .halt) fun _ => Reply.stopped)

/-- No call fails after it has changed something. -/
theorem failsCleanly_reply (s : Setup) (c : Call) : (c.reply s).FailsCleanly := by
  rcases succeeds_or_adds s c with hsucceeds | ⟨address, id, now, rfl⟩
  · exact hsucceeds.failsCleanly
  · rw [Call.reply, introduce]
    split
    · trivial
    · intro outcome
      cases outcome with
      | error error => exact .inr ⟨trivial, trivial⟩
      | ok _ =>
        have hgreet : (transmitCounted .hellosSent s.greeting address id >>= fun _ =>
            pure (.ok ()) : Routine (Except SwarmError Unit)).Succeeds :=
          succeeds_reply _ fun _ => ()
        exact .inl (hgreet.bind fun _ => ⟨Reply.added, rfl⟩)

theorem failsCleanly_begunReply (e : Engine) (c : Call) : (c.begunReply e).FailsCleanly := by
  rw [Call.begunReply]
  split
  · trivial
  · exact failsCleanly_reply e.setup c

-- ---------------------------------------------------------------------------
-- Without interruption
-- ---------------------------------------------------------------------------

theorem run_introduce (socket : Socket) (s : Setup) (address : Address) (id : NodeId) (now : Nat)
    (e : Engine) : ((Call.addStaticNeighbor address id now).reply s).run socket e =
      (((introduce s address id now).run socket e).1.map fun () => .added,
        ((introduce s address id now).run socket e).2) :=
  run_bind ..

/-- A call that is not refused gives what it gives if nobody interrupts it. -/
theorem run_reply (socket : Socket) {e : Engine} (hrunning : e.running = true) (c : Call) :
    (c.reply e.setup).run socket e = c.make socket e := by
  cases c with
  | sendHello =>
    rw [Call.make, sendHello, whileRunning, if_pos hrunning]
    exact run_bind ..
  | addStaticNeighbor address id now =>
    have hclean := failsCleanly_reply e.setup (.addStaticNeighbor address id now)
    have hrun := run_introduce socket e.setup address id now e
    rw [Call.make, addStaticNeighbor, whileRunning, if_pos hrunning]
    rcases hintroduce : (introduce e.setup address id now).run socket e with ⟨_ | _, e'⟩
    · rw [hintroduce] at hrun
      have hunchanged := hclean.run_eq (congrArg Prod.fst hrun)
      rw [hrun] at hunchanged ⊢
      exact Prod.ext rfl hunchanged
    · rw [hintroduce] at hrun
      exact hrun
  | sendToRandom rand formula =>
    rw [Call.make, sendToRandom, whileRunning, if_pos hrunning]
    exact run_bind ..
  | sendToAll formula =>
    rw [Call.make, sendToAll, whileRunning, if_pos hrunning]
    exact run_bind ..
  | nextEvent => rfl
  | drainEvents => rfl
  | stop => rfl

/-- What a call gives that nobody interrupts. -/
theorem run_begunReply (socket : Socket) (e : Engine) (c : Call) :
    (c.begunReply e).run socket e = c.make socket e := by
  cases hrunning : e.running with
  | true =>
    rw [Call.begunReply, hrunning, Bool.not_true, Bool.and_false, if_neg Bool.false_ne_true]
    exact run_reply socket hrunning c
  | false =>
    cases c with
    | nextEvent => rfl
    | drainEvents => rfl
    | stop => rfl
    | _ =>
      simp [Call.begunReply, Call.make, Call.sends, hrunning, sendHello, addStaticNeighbor,
        sendToRandom, sendToAll, whileRunning, answered, Except.map, Routine.run]

-- ---------------------------------------------------------------------------
-- The calls that fail
-- ---------------------------------------------------------------------------

/-- The calls that give an error, and which one. -/
inductive Call.Fails (e : Engine) : Call → SwarmError → Prop
  | notRunning {c : Call} (sends : c.sends = true) (stopped : e.running = false) :
    Fails e c .notRunning
  | ownId {address : Address} {now : Nat} (running : e.running = true) :
    Fails e (.addStaticNeighbor address e.setup.nodeId now)
      (.config ("static neighbor " ++ address.text ++ " uses this node's id"))
  | tableFull {address : Address} {id : NodeId} {now : Nat} (running : e.running = true)
    (foreign : id ≠ e.setup.nodeId) (new : id ∉ e.neighbors.ids)
    (full : e.neighbors.capacity ≤ e.neighbors.length) :
    Fails e (.addStaticNeighbor address id now) (.neighbor (.tableFull e.neighbors.capacity))

/-- A stopped engine refuses what sends. -/
theorem make_of_stopped (socket : Socket) {e : Engine} (hstopped : e.running = false) {c : Call}
    (hsends : c.sends = true) : c.make socket e = (.error .notRunning, e) := by
  rw [← run_begunReply, Call.begunReply, hsends, hstopped]
  rfl

theorem make_of_fails (socket : Socket) {e : Engine} {c : Call} {error : SwarmError}
    (h : c.Fails e error) : (c.make socket e).1 = .error error := by
  cases h with
  | notRunning sends stopped => rw [make_of_stopped socket stopped sends]
  | ownId running =>
    rw [← run_reply socket running, run_introduce, introduce, if_pos rfl]
    rfl
  | @tableFull address id now running foreign new full =>
    rw [← run_reply socket running, run_introduce, introduce, if_neg foreign, run_bind]
    simp only [Routine.of, Routine.run, Access.perform]
    rcases e.neighbors.upsert_cases id address now with
      ⟨hknown, -⟩ | ⟨-, -, herror⟩ | ⟨-, hroom, -⟩
    · exact absurd hknown new
    · rw [herror]
      rfl
    · exact absurd hroom (Nat.not_lt.mpr full)

/-- What is not introduced is the engine's own identity, or new with no room for it. -/
theorem fails_of_run_introduce {socket : Socket} {e : Engine} {address : Address} {id : NodeId}
    {now : Nat} {error : SwarmError} (hrunning : e.running = true)
    (h : ((introduce e.setup address id now).run socket e).1 = .error error) :
    (Call.addStaticNeighbor address id now).Fails e error := by
  rw [introduce] at h
  by_cases hown : id = e.setup.nodeId
  · rw [if_pos hown] at h
    cases h
    subst hown
    exact .ownId hrunning
  · rw [if_neg hown, run_bind] at h
    simp only [Routine.of, Routine.run, Access.perform] at h
    rcases e.neighbors.upsert_cases id address now with
      ⟨-, hok⟩ | ⟨hnew, hfull, herror⟩ | ⟨-, -, hok⟩
    · simp only [hok, run_bind] at h
      cases h
    · rw [herror] at h
      cases h
      exact .tableFull hrunning hown hnew hfull
    · simp only [hok, run_bind] at h
      cases h

theorem fails_of_make {socket : Socket} {e : Engine} {c : Call} {error : SwarmError}
    (h : (c.make socket e).1 = .error error) : c.Fails e error := by
  by_cases hrefused : (c.sends && !e.running) = true
  · rw [Bool.and_eq_true, Bool.not_eq_true'] at hrefused
    rw [make_of_stopped socket hrefused.2 hrefused.1] at h
    cases h
    exact .notRunning hrefused.1 hrefused.2
  · rw [← run_begunReply, Call.begunReply, if_neg hrefused] at h
    rcases succeeds_or_adds e.setup c with hsucceeds | ⟨address, id, now, rfl⟩
    · exact (hsucceeds.run_ne socket e error h).elim
    · rw [run_introduce] at h
      have hrunning : e.running = true := by simpa [Call.sends] using hrefused
      cases hintroduce : ((introduce e.setup address id now).run socket e).1 with
      | error _ =>
        rw [hintroduce] at h
        cases h
        exact fails_of_run_introduce hrunning hintroduce
      | ok _ =>
        rw [hintroduce] at h
        cases h

/-- A call that gives an error has left the engine as it was. -/
theorem make_unchanged {socket : Socket} {e : Engine} {c : Call} {error : SwarmError}
    (h : (c.make socket e).1 = .error error) : (c.make socket e).2 = e := by
  rw [← run_begunReply] at h ⊢
  exact (failsCleanly_begunReply e c).run_eq h

end AffineSwarm.Engine
