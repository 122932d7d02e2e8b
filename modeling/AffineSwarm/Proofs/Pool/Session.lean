import AffineSwarm.Pool.Evolution

/-!
# Sessions with a pool

Everything that changes a pool is one of six calls. A session is a pool together with
the calls that were made on it and whether each succeeded; a failed call is a call like
any other, and what it leaves behind is the pool that the next one finds.

* `Fresh config p` — `p` is as it was made, of a configuration that passes its check
  or of the standard one, from any stream of random words.
* `Session.run` — make calls one after the other.
* `keptExamples` — the examples that the calls of a session should have left.
* `Reachable p` — some session with a fresh pool ends with `p`.
-/

namespace AffineSwarm.Pool

-- ---------------------------------------------------------------------------
-- Calls
-- ---------------------------------------------------------------------------

/-- A call that may change a pool. -/
inductive Command where
  | addExample (e : Example)
  | clearExamples
  | tick (generations : Nat)
  | feedback (gene : Gene) (delta : Binary64)
  | absorb (f : Formula)
  | trainUntil (target : Binary64) (generations rounds : Nat)

/-- A call that was made, and whether it succeeded. -/
structure Call where
  command : Command
  succeeded : Bool

/-- The examples after a call, by what the call reported. -/
def Call.keep (kept : List Example) : Call → List Example
  | ⟨.addExample e, true⟩ => kept ++ [e]
  | ⟨.clearExamples, _⟩ => []
  | _ => kept

/-- The examples that were added successfully since they were last cleared. -/
def keptExamples (calls : List Call) : List Example := calls.foldl Call.keep []

theorem keptExamples_append (calls : List Call) (call : Call) :
    keptExamples (calls ++ [call]) = call.keep (keptExamples calls) := by
  rw [keptExamples, List.foldl_append]
  rfl

-- ---------------------------------------------------------------------------
-- Making calls
-- ---------------------------------------------------------------------------

variable {σ : Type} [WordStream σ]

/-- The pool after a call, and whether the call succeeded. -/
def perform (p : Pool σ) : Command → Bool × Pool σ
  | .addExample e =>
    match p.addExample e with
    | .ok p => (true, p)
    | .error _ => (false, p)
  | .clearExamples => (true, p.clearExamples)
  | .tick generations => (true, (p.tick generations).2)
  | .feedback gene delta =>
    match p.feedback gene delta with
    | .ok (_, p) => (true, p)
    | .error _ => (false, p)
  | .absorb f => (true, (p.absorb f).2)
  | .trainUntil target generations rounds =>
    let trained := p.trainUntil target generations rounds
    (trained.1.isOk, trained.2)

/-- A pool with the calls that were made on it, the first one first. -/
structure Session (σ : Type) where
  pool : Pool σ
  calls : List Call

namespace Session

/-- A pool on which no call was made yet. -/
def ofPool (p : Pool σ) : Session σ := ⟨p, []⟩

/-- Make a call. -/
def call (session : Session σ) (c : Command) : Session σ :=
  let (succeeded, pool) := session.pool.perform c
  ⟨pool, session.calls ++ [⟨c, succeeded⟩]⟩

/-- Make calls one after the other. -/
def run (session : Session σ) (commands : List Command) : Session σ :=
  commands.foldl call session

end Session

/-- A pool as it was made. -/
def Fresh (config : PoolConfig) (p : Pool σ) : Prop :=
  ∃ s, ofConfig? config s = .ok p ∨ (config = .standard ∧ p = standard s)

/-- A pool that calls make of a fresh one. -/
def Reachable (p : Pool σ) : Prop :=
  ∃ config fresh commands, Fresh config fresh ∧ ((Session.ofPool fresh).run commands).pool = p

end AffineSwarm.Pool
