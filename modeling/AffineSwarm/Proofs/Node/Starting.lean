import AffineSwarm.Proofs.Key.Secret

/-!
# From a configuration to an engine

A node's configuration is checked twice: as it was written, and as the engine gets it, with
its times in nanoseconds and its secret turned into a key. If it names its address literally
and passes the first check, then three settings decide what happens next, and nothing else
does (`validated_configuration_starts`):

* the key text must stand for a secret, which the first check takes for granted of every text
  that is not empty;
* the poll timeout must not be zero, which only the second check looks at;
* the port should not be left open if the node broadcasts: it would then broadcast to port 0,
  and nothing refuses that, although an engine of standard settings does not.

So a configuration may pass its check and still give no engine, or one that greets nobody
(`validated_configuration_fails`).
-/

namespace AffineSwarm

/-- The second check of a configuration with the times that the first one looks at. -/
theorem EngineConfig.validate_of_intervals {c : EngineConfig} (hinterval : 0 < c.helloInterval)
    (hstale : c.helloInterval < c.staleAfter) (hneighbors : 0 < c.neighborCapacity)
    (hevents : 0 < c.eventCapacity) :
    c.validate =
      if c.pollTimeout = 0 then .error (.config "poll timeout must be positive") else .ok () := by
  have hcapacities : ¬ (c.neighborCapacity = 0 ∨ c.eventCapacity = 0) := by omega
  rw [validate, if_neg (Nat.ne_of_gt hinterval), if_neg (Nat.not_le.mpr hstale),
    if_neg hcapacities]

namespace NodeConfig

/-- The configuration names the address that its engine binds. -/
def Names (c : NodeConfig) (address : Address) : Prop :=
  Address.ofText? (c.bindHost ++ ":" ++ Decimal.digitText c.port.toNat) = some address

instance (c : NodeConfig) (address : Address) : Decidable (c.Names address) :=
  inferInstanceAs (Decidable (_ = _))

/-- An address that is written out is not looked up. -/
theorem Names.resolve_eq {c : NodeConfig} {address : Address} (h : c.Names address) :
    resolve (c.bindHost ++ ":" ++ Decimal.digitText c.port.toNat) = .ok address := by
  rw [Names] at h
  unfold resolve Address.resolve
  rw [h]

/-- What the first check says about the times. -/
theorem intervals_of_validate {c : NodeConfig} (h : c.validate = .ok ()) :
    0 < c.helloIntervalSecs.toNat ∧ c.helloIntervalSecs.toNat < c.staleAfterSecs.toNat := by
  rw [validate] at h
  split at h
  · cases h
  · split at h
    · cases h
    · rename_i hinterval
      split at h
      · cases h
      · rename_i hstale
        rw [UInt64.le_iff_toNat_le] at hstale
        rw [← UInt64.toNat_inj] at hinterval
        exact ⟨Nat.pos_of_ne_zero hinterval, Nat.lt_of_not_le hstale⟩

/-- What the engine gets, if the key text stands for a secret. -/
theorem exists_engineConfig_iff {c : NodeConfig} {address : Address} (h : c.Names address) :
    (∃ e, c.engineConfig = .ok e) ↔ ∃ bytes, c.secret = .ok bytes := by
  constructor
  · rintro ⟨e, he⟩
    obtain ⟨_, bytes, _, _, hsecret, _⟩ := engineConfig_eq_ok_iff.mp he
    exact ⟨bytes, hsecret⟩
  · rintro ⟨bytes, hsecret⟩
    have hne := (secret_eq_ok_iff.mp hsecret).1
    obtain ⟨key, hkey⟩ := AuthKey.derive_eq_ok hne AuthKey.frameContext
    exact ⟨_, engineConfig_eq_ok_iff.mpr ⟨address, bytes, key, h.resolve_eq, hsecret, hkey, rfl⟩⟩

theorem engineConfig_eq_error {c : NodeConfig} {address : Address} (h : c.Names address)
    {error : CryptoError} (hread : Secret.ofText? c.sharedKey = .error error) :
    c.engineConfig = .error (.crypto error) := by
  rw [engineConfig, h.resolve_eq, secret, hread]
  rfl

/-- The second check adds nothing to the first but the look at the poll timeout. -/
theorem validate_of_engineConfig {c : NodeConfig} {e : EngineConfig} (valid : c.validate = .ok ())
    (he : c.engineConfig = .ok e) :
    e.validate = if c.pollTimeoutMillis = 0 then
      .error (.config "poll timeout must be positive") else .ok () := by
  obtain ⟨hinterval, hstale⟩ := intervals_of_validate valid
  obtain ⟨_, _, _, -, -, -, rfl⟩ := engineConfig_eq_ok_iff.mp he
  have hneighbors : 0 < Neighbor.Table.standardCapacity := by decide
  have hevents : 0 < EventQueue.standardCapacity := by decide
  have htimeout : Duration.ofMillis c.pollTimeoutMillis.toNat = 0 ↔ c.pollTimeoutMillis = 0 := by
    rw [Duration.ofMillis, ← UInt64.toNat_inj, UInt64.toNat_zero]
    omega
  rw [EngineConfig.validate_of_intervals (Nat.mul_pos hinterval (by decide))
    (Nat.mul_lt_mul_of_pos_right hstale (by decide)) hneighbors hevents]
  simp only [htimeout]

theorem broadcast_of_engineConfig {c : NodeConfig} {e : EngineConfig}
    (he : c.engineConfig = .ok e) :
    e.broadcast = if c.broadcast then some (.broadcast c.port) else none := by
  obtain ⟨_, _, _, -, -, -, rfl⟩ := engineConfig_eq_ok_iff.mp he
  rfl

theorem bindAddress_of_engineConfig {c : NodeConfig} {address : Address} {e : EngineConfig}
    (h : c.Names address) (he : c.engineConfig = .ok e) : e.bindAddress = address := by
  obtain ⟨_, _, _, hbind, -, -, rfl⟩ := engineConfig_eq_ok_iff.mp he
  exact Except.ok.inj (hbind.symm.trans h.resolve_eq)

/-- **What a configuration gives that passed its check.** It gives an engine configuration
exactly if its key text stands for a secret; otherwise the error says what is wrong with the
text. What it gives binds the address that was named. It passes the second check exactly if
the poll timeout is not zero, and it broadcasts exactly if broadcasts are on: to its own port
as an engine of standard settings does, except that it does so for an open port too. -/
theorem validated_configuration_starts (c : NodeConfig) (address : Address)
    (valid : c.validate = .ok ()) (literal : c.Names address) :
    ((∃ e, c.engineConfig = .ok e) ↔
      ∃ bytes, bytes ≠ [] ∧ Secret.StandsFor c.sharedKey bytes) ∧
    (∀ error, Secret.ofText? c.sharedKey = .error error →
      c.engineConfig = .error (.crypto error)) ∧
    ∀ e, c.engineConfig = .ok e →
      e.bindAddress = address ∧
      e.validate = (if c.pollTimeoutMillis = 0 then
          .error (.config "poll timeout must be positive") else .ok ()) ∧
      e.broadcast = (if c.broadcast then some (.broadcast c.port) else none) ∧
      (e.broadcast = (if c.broadcast then
          (EngineConfig.standard c.nodeId c.port e.key).broadcast else none) ↔
        ¬ (c.broadcast = true ∧ c.port = 0)) ∧
      ((∃ a, e.broadcast = some a ∧ a.port = 0) ↔ c.broadcast = true ∧ c.port = 0) := by
  refine ⟨?_, fun error => engineConfig_eq_error literal, fun e he => ?_⟩
  · rw [exists_engineConfig_iff literal]
    exact exists_congr fun _ => secret_eq_ok_iff
  · have hbroadcast := broadcast_of_engineConfig he
    refine ⟨bindAddress_of_engineConfig literal he, validate_of_engineConfig valid he, hbroadcast,
      ?_, ?_⟩
    · rw [hbroadcast]
      simp only [EngineConfig.standard, EngineConfig.broadcastFor]
      by_cases hport : c.port = 0
      · simp [hport]
      · simp [hport]
    · rw [hbroadcast]
      have hport : (Address.broadcast c.port).port = c.port := rfl
      cases c.broadcast with
      | false => simp
      | true => simp [hport]

/-- The standard configuration with a secret. -/
def keyed : NodeConfig := { standard with sharedKey := "k" }

/-- The standard configuration starts as soon as it has a secret, and broadcasts. -/
theorem validated_configuration_starts_keyed :
    keyed.validate = .ok () ∧ keyed.Names (.anyHost 47000) ∧
    ∃ e, keyed.engineConfig = .ok e ∧ e.bindAddress = .anyHost 47000 ∧ e.validate = .ok () ∧
      e.broadcast = (EngineConfig.standard 1 47000 e.key).broadcast := by
  have hvalid : keyed.validate = .ok () := by decide
  have hnames : keyed.Names (.anyHost 47000) := by decide +kernel
  have hstands : Secret.StandsFor keyed.sharedKey [0x6b] :=
    .plain (by decide : ¬ Secret.mark <+: keyed.sharedKey.toList)
  obtain ⟨hexists, -, hgives⟩ := validated_configuration_starts keyed _ hvalid hnames
  obtain ⟨e, he⟩ := hexists.mpr ⟨_, by decide, hstands⟩
  obtain ⟨hbind, hvalidated, -, hbroadcast, -⟩ := hgives e he
  exact ⟨hvalid, hnames, e, he, hbind, hvalidated, hbroadcast.mpr (by decide)⟩

/-- **Passing the check is not enough.** Three configurations pass it and name their address:
one without time for a poll, whose engine is refused; one that leaves its port open and
broadcasts to port 0, where an engine of standard settings does not broadcast; and one whose
key text stands for no byte, which gives no engine. -/
theorem validated_configuration_fails :
    let hasty : NodeConfig := { keyed with pollTimeoutMillis := 0 }
    let unbound : NodeConfig := { keyed with port := 0 }
    let keyless : NodeConfig := { keyed with sharedKey := "hex:" }
    (hasty.validate = .ok () ∧ hasty.Names (.anyHost 47000) ∧ ∃ e, hasty.engineConfig = .ok e ∧
      e.validate = .error (.config "poll timeout must be positive")) ∧
    (unbound.validate = .ok () ∧ unbound.Names (.anyHost 0) ∧ ∃ e, unbound.engineConfig = .ok e ∧
      e.broadcast = some (.broadcast 0) ∧
      (EngineConfig.standard unbound.nodeId unbound.port e.key).broadcast = none) ∧
    (keyless.validate = .ok () ∧ keyless.Names (.anyHost 47000) ∧
      keyless.engineConfig = .error (.crypto .emptyKey)) := by
  intro hasty unbound keyless
  have hhasty : hasty.Names (.anyHost 47000) := by decide +kernel
  have hunbound : unbound.Names (.anyHost 0) := by decide +kernel
  have hkeyless : keyless.Names (.anyHost 47000) := by decide +kernel
  have hsecret : ∀ c : NodeConfig, c.sharedKey = "k" → c.secret = .ok [0x6b] := by
    intro c hc
    rw [secret, hc]
    rfl
  refine ⟨⟨by decide, hhasty, ?_⟩, ⟨by decide, hunbound, ?_⟩, by decide, hkeyless, ?_⟩
  · obtain ⟨e, he⟩ := (exists_engineConfig_iff hhasty).mpr ⟨_, hsecret hasty rfl⟩
    exact ⟨e, he, validate_of_engineConfig (by decide) he⟩
  · obtain ⟨e, he⟩ := (exists_engineConfig_iff hunbound).mpr ⟨_, hsecret unbound rfl⟩
    exact ⟨e, he, broadcast_of_engineConfig he, rfl⟩
  · exact engineConfig_eq_error hkeyless (by decide)

end NodeConfig

end AffineSwarm
