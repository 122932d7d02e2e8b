import AffineSwarm.Proofs.Engine.Accesses
import AffineSwarm.Proofs.Engine.Datagram
import Mathlib.Order.Basic

/-!
# What peers owe each other

Peers share a key, have identities and addresses of their own, and do not broadcast. Who of
them knows whom only ever grows. A peer greets whom it likes, but migrates formulas only to
peers that it knows, and every node that it enters into its table is a peer at its true
address (`Peers.Permits`).

A greeting makes a debt: it is to be entered, and a peer that was entered just now is to be
greeted back unless it knows us already (`Debt.Becomes`). `Routine.Settles` says of a routine
that it settles its debt, whatever its accesses give that is true, and whoever gets to know
whom meanwhile.

## Results

* `Routine.Settles.bind` — one routine after another.
* `clears_begun`, `clears_upkeep` — calls and housekeeping owe nothing in the end.
* `clears_handle_hello` — handling a greeting settles the debt that it makes.
* `clears_handle` — handling anything else that a peer says makes no debt.
-/

namespace AffineSwarm.Engine

-- ---------------------------------------------------------------------------
-- Peers
-- ---------------------------------------------------------------------------

/-- Nodes that may get to know each other. -/
structure Peers (ι : Type) where
  key : AuthKey
  id : ι → NodeId
  address : ι → Address
  id_injective : Function.Injective id
  address_injective : Function.Injective address

variable {ι : Type} {p : Peers ι} {i j : ι} {known known' : ι → ι → Prop}

namespace Peers

def hash (p : Peers ι) : KeyedHash := p.key.keyedHash

def greeting (p : Peers ι) (i : ι) : List UInt8 := Frame.encode p.hash (.hello (p.id i))

/-- The setup with which a peer runs. -/
structure IsSetup (p : Peers ι) (i : ι) (s : Setup) : Prop where
  nodeId : s.nodeId = p.id i
  hash : s.hash = p.hash
  broadcast : s.broadcast = none

/-- An entry for a peer that is known, with its true address. -/
def IsEntry (p : Peers ι) (known : ι → ι → Prop) (i : ι) (n : Neighbor) : Prop :=
  ∃ j, known i j ∧ n.id = p.id j ∧ n.address = p.address j

/-- What one peer may say to another. -/
def Says (p : Peers ι) (known : ι → ι → Prop) (i j : ι) : Message → Prop
  | .hello id => id = p.id i
  | .migrate id _ _ => id = p.id i ∧ known i j
  | .ack _ => True

/-- The accesses that a peer may make. -/
def Permits (p : Peers ι) (known : ι → ι → Prop) (i : ι) : Access → Prop
  | .send frame target =>
    ∃ j m, target = p.address j ∧ frame = Frame.encode p.hash m ∧ p.Says known i j m
  | .upsert id address _ => ∃ j, j ≠ i ∧ id = p.id j ∧ address = p.address j
  | _ => True

/-- What is true of the answer to an access: a table has entries of known peers only, and has
room for every peer. -/
def Truthful (p : Peers ι) (known : ι → ι → Prop) (i : ι) : (a : Access) → a.Answer → Prop
  | .snapshot, neighbors => ∀ n ∈ neighbors, p.IsEntry known i n
  | .pick _, neighbor => ∀ n, neighbor = some n → p.IsEntry known i n
  | .upsert _ _ _, outcome => ∃ done, outcome = .ok done
  | _, _ => True

theorem Says.mono {m : Message} (h : p.Says known i j m) (hle : known ≤ known') :
    p.Says known' i j m := by
  cases m with
  | migrate id gene fitness => exact ⟨h.1, hle i j h.2⟩
  | _ => exact h

theorem IsEntry.mono {n : Neighbor} (h : p.IsEntry known i n) (hle : known ≤ known') :
    p.IsEntry known' i n := by
  obtain ⟨j, hknown, hn⟩ := h
  exact ⟨j, hle i j hknown, hn⟩

theorem Permits.mono {a : Access} (h : p.Permits known i a) (hle : known ≤ known') :
    p.Permits known' i a := by
  cases a with
  | send frame target =>
    obtain ⟨j, m, htarget, hframe, hsaid⟩ := h
    exact ⟨j, m, htarget, hframe, hsaid.mono hle⟩
  | _ => exact h

theorem Truthful.mono {a : Access} {answer : a.Answer} (h : p.Truthful known i a answer)
    (hle : known ≤ known') : p.Truthful known' i a answer := by
  cases a with
  | snapshot => exact fun n hn => (h n hn).mono hle
  | pick rand => exact fun n hn => (h n hn).mono hle
  | _ => exact h

theorem permits_greeting (p : Peers ι) (known : ι → ι → Prop) (i j : ι) :
    p.Permits known i (.send (p.greeting i) (p.address j)) := ⟨j, _, rfl, rfl, rfl⟩

namespace IsSetup

variable {s : Setup}

theorem encode_eq (h : p.IsSetup i s) (m : Message) : s.encode m = Frame.encode p.hash m := by
  rw [Setup.encode, h.hash]

theorem greeting_eq (h : p.IsSetup i s) : s.greeting = p.greeting i := by
  rw [Setup.greeting, h.encode_eq, h.nodeId]
  rfl

theorem broadcastTargets_eq (h : p.IsSetup i s) : s.broadcastTargets = [] := by
  rw [Setup.broadcastTargets, h.broadcast]
  rfl

/-- A formula may be migrated to every peer that is known. -/
theorem permits_migration (h : p.IsSetup i s) (f : Formula) {n : Neighbor}
    (hn : p.IsEntry known i n) : p.Permits known i (.send (s.migration f) n.address) := by
  obtain ⟨j, hknown, -, haddress⟩ := hn
  refine ⟨j, .migration (p.id i) f, haddress, ?_, rfl, hknown⟩
  rw [Setup.migration, h.encode_eq, h.nodeId]

theorem permits_greeting (h : p.IsSetup i s) {n : Neighbor} (hn : p.IsEntry known i n) :
    p.Permits known i (.send s.greeting n.address) := by
  obtain ⟨j, -, -, haddress⟩ := hn
  rw [h.greeting_eq, haddress]
  exact p.permits_greeting known i j

end IsSetup

end Peers

-- ---------------------------------------------------------------------------
-- Debts
-- ---------------------------------------------------------------------------

/-- What a routine still owes: to enter a peer that has greeted, or to greet a peer that was
entered just now. -/
inductive Debt (ι : Type) where
  | none
  | enter (j : ι)
  | greet (j : ι)
  deriving DecidableEq

/-- What an access does to a debt. A greeting may settle it. To enter a peer settles it too,
but then the peer is owed a greeting, unless it was not new or knows us already. -/
def Debt.Becomes (p : Peers ι) (known : ι → ι → Prop) (i : ι) :
    (a : Access) → a.Answer → Debt ι → Debt ι → Prop
  | .send frame target, _, d, d' =>
    d' = d ∨ ∃ j, d = .greet j ∧ d' = .none ∧ frame = p.greeting i ∧ target = p.address j
  | .upsert id _ _, outcome, d, d' =>
    ∃ j, id = p.id j ∧ (d = .none ∨ d = .enter j) ∧
      (d' = .greet j ∨ d' = .none ∧ (outcome = .ok .inserted → known j i))
  | _, _, d, d' => d' = d

namespace Routine

open Peers (Permits Truthful)

variable {α β : Type} {post : (ι → ι → Prop) → Debt ι → α → Prop} {d : Debt ι}

/-- A routine of a peer makes permitted accesses only and comes from a debt to one with a
postcondition, whatever true answers its accesses give and whoever gets to know whom. -/
def Settles (p : Peers ι) (i : ι) (post : (ι → ι → Prop) → Debt ι → α → Prop) :
    Routine α → (ι → ι → Prop) → Debt ι → Prop
  | .done result, known, d => post known d result
  | .access a next, known, d =>
    p.Permits known i a ∧ ∀ known' answer, known ≤ known' → p.Truthful known' i a answer →
      ∃ d', d.Becomes p known' i a answer d' ∧ Settles p i post (next answer) known' d'

theorem settles_pure {result : α} (h : post known d result) :
    (pure result : Routine α).Settles p i post known d := h

theorem Settles.bind {r : Routine α} {rest : α → Routine β}
    {post' : (ι → ι → Prop) → Debt ι → β → Prop} (h : r.Settles p i post known d)
    (hrest : ∀ known' d' result, known ≤ known' → post known' d' result →
      (rest result).Settles p i post' known' d') :
    (r >>= rest).Settles p i post' known d := by
  induction r generalizing known d with
  | done result => exact hrest known d result le_rfl h
  | access a next ih =>
    refine ⟨h.1, fun known' answer hle htruthful => ?_⟩
    obtain ⟨d', hbecomes, hnext⟩ := h.2 known' answer hle htruthful
    exact ⟨d', hbecomes, ih answer hnext fun known'' d'' result hle' =>
      hrest known'' d'' result (hle.trans hle')⟩

/-- Neutral accesses leave the debt to what follows. -/
theorem All.settles {r : Routine α} (h : r.All Neutral) :
    r.Settles p i (fun _ d' _ => d' = d) known d := by
  induction r generalizing known with
  | done result => rfl
  | access a next ih =>
    obtain ⟨hneutral, hnext⟩ := h
    have hpermits : p.Permits known i a := by
      cases a with
      | send frame target => exact hneutral.elim
      | upsert id address now => exact hneutral.elim
      | _ => trivial
    refine ⟨hpermits, fun known' answer _ _ => ⟨d, ?_, ih answer (hnext answer)⟩⟩
    cases a with
    | send frame target => exact hneutral.elim
    | upsert id address now => exact hneutral.elim
    | _ => rfl

theorem All.bind_settles {post' : (ι → ι → Prop) → Debt ι → β → Prop} {r : Routine α}
    {rest : α → Routine β} (h : r.All Neutral)
    (hrest : ∀ known' result, known ≤ known' → (rest result).Settles p i post' known' d) :
    (r >>= rest).Settles p i post' known d :=
  h.settles.bind fun known' _ result hle hd => hd ▸ hrest known' result hle

end Routine

open Routine (all_pure all_of settles_pure)
open Neighbor.Table (Upsert)

variable {s : Setup} {d d' : Debt ι}

/-- A routine that owes nothing in the end. -/
abbrev Routine.Clears {α : Type} (p : Peers ι) (i : ι) (r : Routine α) (known : ι → ι → Prop)
    (d : Debt ι) : Prop :=
  r.Settles p i (fun _ d' _ => d' = .none) known d

-- ---------------------------------------------------------------------------
-- Single accesses
-- ---------------------------------------------------------------------------

theorem settles_of {a : Access} (h : Neutral a) :
    (Routine.of a).Settles p i (fun _ d' _ => d' = d) known d :=
  (all_of h).settles

theorem settles_snapshot :
    (Routine.of .snapshot).Settles p i
      (fun known' d' neighbors => d' = d ∧ ∀ n ∈ neighbors, p.IsEntry known' i n) known d :=
  ⟨trivial, fun _ _ _ htruthful => ⟨d, rfl, rfl, htruthful⟩⟩

theorem settles_pick (rand : UInt64) :
    (Routine.of (.pick rand)).Settles p i
      (fun known' d' neighbor => d' = d ∧ ∀ n, neighbor = some n → p.IsEntry known' i n) known d :=
  ⟨trivial, fun _ _ _ htruthful => ⟨d, rfl, rfl, htruthful⟩⟩

/-- To enter a peer succeeds, and leaves a debt that is chosen by whether it was new. -/
theorem settles_upsert (left : Upsert → Debt ι) (hne : j ≠ i) (now : Nat)
    (hdebt : d = .none ∨ d = .enter j)
    (hleft : ∀ done, left done = .greet j ∨ left done = .none ∧ (done = .inserted → known j i)) :
    (Routine.of (.upsert (p.id j) (p.address j) now)).Settles p i
      (fun _ d' outcome => ∃ done, outcome = .ok done ∧ d' = left done) known d := by
  refine ⟨⟨j, hne, rfl, rfl⟩, fun known' outcome hle htruthful => ?_⟩
  obtain ⟨done, rfl⟩ := htruthful
  refine ⟨left done, ⟨j, rfl, hdebt, (hleft done).imp_right fun ⟨hnone, hknown⟩ => ?_⟩,
    done, rfl, rfl⟩
  refine ⟨hnone, fun hinserted => ?_⟩
  cases hinserted
  exact hle j i (hknown rfl)

-- ---------------------------------------------------------------------------
-- Sending
-- ---------------------------------------------------------------------------

/-- Sending one frame does to a debt what handing the frame to the socket does. -/
theorem settles_transmit {frame : List UInt8} {target : Address} {peer : Option NodeId}
    (hpermits : p.Permits known i (.send frame target))
    (hbecomes : d.Becomes p known i (.send frame target) true d') :
    (transmit frame target peer).Settles p i (fun _ d'' _ => d'' = d') known d := by
  refine ⟨hpermits, fun known' succeeded _ _ => ⟨d', hbecomes, ?_⟩⟩
  cases succeeded with
  | true => exact settles_pure rfl
  | false => exact (neutral_blame peer).bind_settles fun _ _ _ => settles_pure rfl

theorem settles_transmitCounted {counter : Counter} {frame : List UInt8} {target : Address}
    {id : NodeId} (hpermits : p.Permits known i (.send frame target))
    (hbecomes : d.Becomes p known i (.send frame target) true d') :
    (transmitCounted counter frame target id).Settles p i (fun _ d'' _ => d'' = d') known d := by
  refine (settles_transmit hpermits hbecomes).bind fun known' d'' succeeded _ hd => ?_
  subst hd
  cases succeeded with
  | true => exact settles_of trivial
  | false => exact settles_pure rfl

/-- To greet a peer settles the debt to greet it. -/
theorem settles_greet (hs : p.IsSetup i s) (j : ι) :
    (transmitCounted .hellosSent s.greeting (p.address j) (p.id j)).Settles p i
      (fun _ d' _ => d' = .none) known (.greet j) := by
  rw [hs.greeting_eq]
  exact settles_transmitCounted (p.permits_greeting known i j) (.inr ⟨j, rfl, rfl, rfl, rfl⟩)

/-- Sending to several addresses leaves every debt as it is. -/
theorem settles_transmitAll {frame : List UInt8} {targets : List (Address × Option NodeId)}
    (hpermits : ∀ target ∈ targets, p.Permits known i (.send frame target.1)) :
    (transmitAll frame targets).Settles p i (fun _ d' _ => d' = d) known d := by
  induction targets generalizing known with
  | nil => exact settles_pure rfl
  | cons target rest ih =>
    obtain ⟨address, peer⟩ := target
    refine (settles_transmit (hpermits _ List.mem_cons_self) (.inl rfl)).bind
      fun known' d' _ hle hd => ?_
    subst hd
    have hrest : ∀ target ∈ rest, p.Permits known' i (.send frame target.1) :=
      fun target hmem => (hpermits target (List.mem_cons_of_mem _ hmem)).mono hle
    exact (ih hrest).bind fun _ _ _ _ hd => settles_pure hd

/-- Sending to all neighbors leaves every debt as it is. -/
theorem settles_transmitAll_targets {frame : List UInt8} {neighbors : List Neighbor}
    (hpermits : ∀ n ∈ neighbors, p.Permits known i (.send frame n.address)) :
    (transmitAll frame (targets neighbors)).Settles p i (fun _ d' _ => d' = d) known d := by
  refine settles_transmitAll fun target hmem => ?_
  obtain ⟨n, hn, rfl⟩ := List.mem_map.mp hmem
  exact hpermits n hn

theorem settles_announce (hs : p.IsSetup i s) :
    (announce s).Settles p i (fun _ d' _ => d' = d) known d := by
  rw [announce, hs.broadcastTargets_eq]
  refine Routine.Settles.bind (settles_transmitAll nofun) fun known₁ d₁ _ _ hd₁ => ?_
  subst hd₁
  refine settles_snapshot.bind fun known₂ d₂ neighbors _ hsnapshot => ?_
  obtain ⟨rfl, hentries⟩ := hsnapshot
  refine (settles_transmitAll_targets fun n hn => hs.permits_greeting (hentries n hn)).bind
    fun known₃ d₃ _ _ hd₃ => ?_
  subst hd₃
  exact Routine.Settles.bind (settles_of trivial) fun _ _ _ _ hd => settles_pure hd

-- ---------------------------------------------------------------------------
-- Calls and housekeeping
-- ---------------------------------------------------------------------------

/-- The calls that a peer may make: static neighbors are peers at their addresses. -/
def Call.IsFor (p : Peers ι) : Call → Prop
  | .addStaticNeighbor address id _ => ∃ j, address = p.address j ∧ id = p.id j
  | _ => True

/-- A static neighbor is greeted whether it was new or not. -/
theorem clears_introduce (hs : p.IsSetup i s) (j : ι) (now : Nat) :
    (introduce s (p.address j) (p.id j) now).Clears p i known .none := by
  rw [introduce]
  by_cases hown : p.id j = s.nodeId
  · rw [if_pos hown]
    exact settles_pure rfl
  · rw [if_neg hown]
    have hne : j ≠ i := by
      rintro rfl
      exact hown hs.nodeId.symm
    refine (settles_upsert (fun _ => .greet j) hne now (.inl rfl) fun _ => .inl rfl).bind
      fun known' d' outcome _ hupsert => ?_
    obtain ⟨done, rfl, rfl⟩ := hupsert
    exact (settles_greet hs j).bind fun _ _ _ _ hd => settles_pure hd

theorem clears_share (hs : p.IsSetup i s) (rand : UInt64) (formula : Formula) :
    (share s rand formula).Clears p i known .none := by
  refine (settles_pick rand).bind fun known' d' neighbor _ hpick => ?_
  obtain ⟨rfl, hentry⟩ := hpick
  cases neighbor with
  | none => exact settles_pure rfl
  | some n =>
    exact (settles_transmitCounted (hs.permits_migration formula (hentry n rfl)) (.inl rfl)).bind
      fun _ _ _ _ hd => settles_pure hd

theorem clears_shareWithAll (hs : p.IsSetup i s) (formula : Formula) :
    (shareWithAll s formula).Clears p i known .none := by
  rw [shareWithAll, hs.broadcastTargets_eq]
  refine Routine.Settles.bind settles_snapshot fun known₁ d₁ neighbors _ hsnapshot => ?_
  obtain ⟨rfl, hentries⟩ := hsnapshot
  refine (settles_transmitAll_targets fun n hn =>
    hs.permits_migration formula (hentries n hn)).bind fun known₂ d₂ _ _ hd₂ => ?_
  subst hd₂
  refine Routine.Settles.bind (settles_transmitAll nofun) fun known₃ d₃ _ _ hd₃ => ?_
  subst hd₃
  exact Routine.Settles.bind (settles_of trivial) fun _ _ _ _ hd => settles_pure hd

/-- A call owes nothing in the end. -/
theorem clears_begun {e : Engine} (hs : p.IsSetup i e.setup) {c : Call} (hc : c.IsFor p) :
    (c.begun e).Clears p i known .none := by
  have hpure : ∀ {α : Type} {r : Routine α}, r.Clears p i known .none →
      (r >>= fun _ => pure ()).Clears p i known .none :=
    fun h => h.bind fun _ _ _ _ hd => settles_pure hd
  rw [Call.begun]
  split
  · exact settles_pure rfl
  · cases c with
    | sendHello => exact hpure (settles_announce hs)
    | addStaticNeighbor address id now =>
      obtain ⟨j, rfl, rfl⟩ := hc
      exact hpure (clears_introduce hs j now)
    | sendToRandom rand formula => exact hpure (clears_share hs rand formula)
    | sendToAll formula => exact hpure (clears_shareWithAll hs formula)
    | nextEvent => exact hpure (settles_of trivial)
    | drainEvents => exact hpure (settles_of trivial)
    | stop => exact settles_of trivial

/-- Housekeeping owes nothing in the end. -/
theorem clears_upkeep (hs : p.IsSetup i s) (due : Bool) (now : Nat) :
    (upkeep s due now).Clears p i known .none := by
  cases due with
  | true =>
    refine Routine.Settles.bind (settles_announce hs) fun known' d' _ _ hd => ?_
    subst hd
    exact (neutral_evictStale s now).settles
  | false => exact (neutral_evictStale s now).settles

-- ---------------------------------------------------------------------------
-- Receiving
-- ---------------------------------------------------------------------------

/-- The debt that a greeting leaves once its sender was entered or refreshed. -/
def Debt.ofGreeting (j : ι) : Upsert → Debt ι
  | .inserted => .greet j
  | .refreshed => .none

/-- Recording a peer leaves a debt that is chosen by whether it was new. -/
theorem settles_observe (left : Upsert → Debt ι) (hne : j ≠ i) (now : Nat)
    (hdebt : d = .none ∨ d = .enter j)
    (hleft : ∀ done, left done = .greet j ∨ left done = .none ∧ (done = .inserted → known j i)) :
    (observe (p.id j) (p.address j) now).Settles p i
      (fun _ d' isNew => d' = left (if isNew then .inserted else .refreshed)) known d := by
  refine (settles_upsert left hne now hdebt hleft).bind fun known' d' outcome _ hupsert => ?_
  obtain ⟨done, rfl, rfl⟩ := hupsert
  cases done with
  | inserted => exact settles_pure rfl
  | refreshed => exact settles_pure rfl

/-- Who greets is entered, and greeted back if it is new. -/
theorem clears_react_hello (hs : p.IsSetup i s) (hne : j ≠ i) (now : Nat) :
    (react s (p.address j) now (.hello (p.id j))).Clears p i known (.enter j) := by
  have hdeliver : ∀ {known' : ι → ι → Prop},
      (deliver (.hello (p.id j) (p.address j)) >>= fun _ => pure ()).Clears p i known' .none :=
    (neutral_deliver _).bind_settles fun _ _ _ => settles_pure rfl
  have hleft : ∀ done, Debt.ofGreeting j done = .greet j ∨
      Debt.ofGreeting j done = .none ∧ (done = .inserted → known j i) := by
    intro done
    cases done with
    | inserted => exact .inl rfl
    | refreshed => exact .inr ⟨rfl, nofun⟩
  refine (settles_observe _ hne now (.inr rfl) hleft).bind fun known' d' isNew _ hd => ?_
  subst hd
  cases isNew with
  | true =>
    refine (settles_greet hs j).bind fun known'' d'' _ _ hd => ?_
    subst hd
    exact hdeliver
  | false => exact hdeliver

/-- Who migrates a formula knows us, so it is not owed a greeting. -/
theorem clears_react_migrate (hs : p.IsSetup i s) (hne : j ≠ i) (hknown : known j i) (now : Nat)
    (gene : Gene) (fitness : Binary64) :
    (react s (p.address j) now (.migrate (p.id j) gene fitness)).Clears p i known .none := by
  refine (settles_observe (fun _ => .none) hne now (.inl rfl)
    fun _ => .inr ⟨rfl, fun _ => hknown⟩).bind fun known' d' _ _ hd => ?_
  subst hd
  refine (neutral_deliver _).bind_settles fun known'' accepted _ => ?_
  exact settles_transmitCounted ⟨j, _, rfl, hs.encode_eq _, trivial⟩ (.inl rfl)

/-- Handling a frame is neutral, or it is reacting to the message of another node. -/
theorem handle_cases (s : Setup) (m : Message) (origin : Address) (now : Nat) :
    (handle s (Frame.encode s.hash m) origin now).All Neutral ∨
      m.sender? ≠ some s.nodeId ∧ handle s (Frame.encode s.hash m) origin now =
        .access (.count .datagramsReceived 1) fun _ => react s origin now m := by
  cases hdecode : Frame.decode s.hash ((Frame.encode s.hash m).take receiveLimit) with
  | error _ =>
    left
    rw [handle, hdecode]
    exact .bind (all_of trivial) fun _ => all_of trivial
  | ok m' =>
    have hframe := Frame.decode_take_receiveLimit.mp hdecode
    cases Frame.eq_of_decode_encode hframe
    by_cases hown : m.sender? = some s.nodeId
    · left
      rw [handle, hdecode]
      simp only [if_pos hown]
      exact .bind (all_of trivial) fun _ => all_pure _
    · exact .inr ⟨hown, handle_of_decode hframe hown origin now⟩

/-- Handling the greeting of another peer settles the debt that it makes. -/
theorem clears_handle_hello (hs : p.IsSetup i s) (hne : j ≠ i) (now : Nat) :
    (handle s (p.greeting j) (p.address j) now).Clears p i known (.enter j) := by
  have hdecode : Frame.decode s.hash (p.greeting j) = .ok (.hello (p.id j)) := by
    rw [hs.hash]
    exact Frame.decode_encode p.hash (m := .hello (p.id j)) trivial
  have hforeign : (Message.hello (p.id j)).sender? ≠ some s.nodeId := by
    rw [hs.nodeId]
    exact fun hown => hne (p.id_injective (Option.some.inj hown))
  rw [handle_of_decode hdecode hforeign]
  exact ⟨trivial, fun _ _ _ _ => ⟨_, rfl, clears_react_hello hs hne now⟩⟩

/-- Handling anything else that a peer says makes no debt. -/
theorem clears_handle (hs : p.IsSetup i s) {m : Message} (hsaid : p.Says known j i m)
    (hm : ∀ id, m = .hello id → j = i) (now : Nat) :
    (handle s (Frame.encode p.hash m) (p.address j) now).Clears p i known .none := by
  rw [← hs.hash]
  rcases handle_cases s m (p.address j) now with hneutral | ⟨hforeign, hhandle⟩
  · exact hneutral.settles
  · rw [hhandle]
    refine ⟨trivial, fun known' _ hle _ => ⟨_, rfl, ?_⟩⟩
    cases m with
    | hello id =>
      cases hm id rfl
      refine absurd (congrArg some ?_) hforeign
      exact Eq.trans hsaid hs.nodeId.symm
    | migrate id gene fitness =>
      obtain ⟨rfl, hknown⟩ := hsaid
      refine clears_react_migrate hs ?_ (hle j i hknown) now gene fitness
      rintro rfl
      exact hforeign (congrArg some hs.nodeId.symm)
    | ack status =>
      have hneutral : (react s (p.address j) now (.ack status)).All Neutral :=
        .bind (all_of trivial) fun _ => all_of trivial
      exact hneutral.settles

end AffineSwarm.Engine
