import ArgusPump.SecurityStore

/-!
# Edits of the security store

The operations of `main/argus_security_store.c` that commit: each edits a copy of the active
payload and submits it with the copy's generation.

    a commit that goes through → the security epoch moves on  (StoreOp.edit_epoch)

Left out: NULL arguments and the writer's queue.
-/

namespace Argus

/-- `memcpy` to the start of an array. -/
def copyInto {n : Nat} (a : Vector UInt8 n) (bytes : List UInt8) : Vector UInt8 n :=
  .ofFn fun i => bytes.getD i.val (a.get i)

def migrationComplete : UInt8 := 2

/-- The length check of an access point secret. -/
def apSecretLength (secret : List UInt8) : Bool :=
  securityApSecretMin.toNat ≤ secret.length && secret.length ≤ securityApSecretMax.toNat

/-- An access point secret set for the first time. -/
def ApSecretRecord.provision (r : ApSecretRecord) (secret : List UInt8) : ApSecretRecord :=
  { r with
    recordVersion := securityRecordVersion
    provisioned := 1
    length := secret.length.toUInt8
    credentialVersion := 1
    value := copyInto r.value (secret ++ [0]) }

/-- `argus_security_store_bootstrap_ap_secrets`, up to the commit. -/
def storeBootstrapApSecrets (secret : List UInt8) (p : SecurityPayload) : Except EspErr SecurityPayload :=
  if ¬ apSecretLength secret then .error espErrInvalidArg
  else if p.factoryAp.provisioned ≠ 0 ∨ p.activeAp.provisioned ≠ 0 then .error espErrNotSupported
  else
    .ok { p with
      factoryAp := p.factoryAp.provision secret
      activeAp := p.activeAp.provision secret
      securityEpoch := p.securityEpoch + 1 }

/-- `argus_security_store_provision_initial`, up to the commit. -/
def storeProvisionInitial (factoryAp activeAp : List UInt8) (consoleVerifier : PasswordVerifier)
    (p : SecurityPayload) : Except EspErr SecurityPayload :=
  if ¬ apSecretLength factoryAp ∨ ¬ apSecretLength activeAp ∨ ¬ consoleVerifier.recordValid then
    .error espErrInvalidArg
  else if p.factoryAp.provisioned ≠ 0 ∨ p.activeAp.provisioned ≠ 0 ∨
      p.consoleVerifierProvisioned ≠ 0 then .error espErrNotSupported
  else
    .ok { p with
      factoryAp := p.factoryAp.provision factoryAp
      activeAp := p.activeAp.provision activeAp
      consoleVerifier := consoleVerifier
      consoleVerifierProvisioned := 1
      consoleCredentialVersion := 1
      migrationState := migrationComplete
      securityEpoch := p.securityEpoch + 1 }

/-- `argus_security_store_replace_active_ap_secret`, up to the commit. -/
def storeReplaceActiveApSecret (current replacement : List UInt8) (p : SecurityPayload) :
    Except EspErr SecurityPayload :=
  if ¬ apSecretLength current ∨ replacement.length < 12 ∨
      replacement.length > securityApSecretMax.toNat ∨ replacement.head? = some 0x20 ∨
      replacement.getLast? = some 0x20 ∨ ¬ replacement.all isprint then .error espErrInvalidArg
  else if p.activeAp.provisioned = 0 ∨ p.activeAp.length.toNat ≠ current.length ∨
      p.activeAp.value.toList.take p.activeAp.length.toNat ≠ current then .error espErrInvalidState
  else
    .ok { p with
      activeAp := { p.activeAp with
        value := copyInto (.replicate 64 0) replacement
        length := replacement.length.toUInt8
        credentialVersion := bumped p.activeAp.credentialVersion }
      securityEpoch := bumped p.securityEpoch }

/-- `argus_security_store_set_console_verifier`, up to the commit. -/
def storeSetConsoleVerifier (record : PasswordVerifier) (allowReplace : Bool) (p : SecurityPayload) :
    Except EspErr SecurityPayload :=
  if ¬ record.recordValid then .error espErrInvalidArg
  else if p.consoleVerifierProvisioned ≠ 0 ∧ ¬ allowReplace then .error espErrNotSupported
  else
    .ok { p with
      consoleVerifier := record
      consoleVerifierProvisioned := 1
      consoleCredentialVersion := bumped p.consoleCredentialVersion
      securityEpoch := p.securityEpoch + 1 }

/-- `update_state`: nothing is committed if nothing changes. -/
def storeUpdateState (changed : Bool) (change : SecurityPayload → SecurityPayload) (p : SecurityPayload) :
    Option SecurityPayload :=
  if changed then some { change p with securityEpoch := p.securityEpoch + 1 } else none

/-- `argus_security_store_set_migration_state`, up to the commit. -/
def storeSetMigrationState (state : UInt8) (p : SecurityPayload) : Except EspErr (Option SecurityPayload) :=
  if state > securityMigrationMax then .error espErrInvalidArg
  else .ok (storeUpdateState (p.migrationState ≠ state) (fun p => { p with migrationState := state }) p)

/-- `argus_security_store_set_recovery_state`, up to the commit. -/
def storeSetRecoveryState (state : UInt8) (p : SecurityPayload) : Except EspErr (Option SecurityPayload) :=
  if state > securityRecoveryMax then .error espErrInvalidArg
  else .ok (storeUpdateState (p.recoveryState ≠ state) (fun p => { p with recoveryState := state }) p)

inductive StoreOp
  | bootstrapApSecrets (secret : List UInt8)
  | provisionInitial (factoryAp activeAp : List UInt8) (consoleVerifier : PasswordVerifier)
  | replaceActiveApSecret (current replacement : List UInt8)
  | setConsoleVerifier (record : PasswordVerifier) (allowReplace : Bool)
  | setMigrationState (state : UInt8)
  | setRecoveryState (state : UInt8)

namespace StoreOp

/-- What an operation commits, if it commits. -/
def edit : StoreOp → SecurityPayload → Except EspErr (Option SecurityPayload)
  | .bootstrapApSecrets secret, p => (storeBootstrapApSecrets secret p).map some
  | .provisionInitial factoryAp activeAp consoleVerifier, p =>
    (storeProvisionInitial factoryAp activeAp consoleVerifier p).map some
  | .replaceActiveApSecret current replacement, p =>
    (storeReplaceActiveApSecret current replacement p).map some
  | .setConsoleVerifier record allowReplace, p => (storeSetConsoleVerifier record allowReplace p).map some
  | .setMigrationState state, p => storeSetMigrationState state p
  | .setRecoveryState state, p => storeSetRecoveryState state p

theorem map_some_ok {α : Type} {x : Except EspErr α} {a : α} (h : x.map some = .ok (some a)) : x = .ok a := by
  cases x with
  | error err => cases h
  | ok b => exact congrArg Except.ok (Option.some.inj (Except.ok.inj h))

theorem epoch_of_updateState {changed : Bool} {change : SecurityPayload → SecurityPayload}
    {p q : SecurityPayload} (h : storeUpdateState changed change p = some q) :
    q.securityEpoch = p.securityEpoch + 1 := by
  unfold storeUpdateState at h
  split at h
  · rw [← Option.some.inj h]
  · cases h

/-- What two refusals leave. -/
theorem ok_of_guards {α : Type} {c d : Prop} [Decidable c] [Decidable d] {e e' : EspErr} {a b : α}
    (h : (if c then .error e else if d then .error e' else .ok a : Except EspErr α) = .ok b) : b = a := by
  split at h
  · cases h
  · split at h
    · cases h
    · exact (Except.ok.inj h).symm

/-- The epoch an operation writes. -/
theorem edit_epoch {op : StoreOp} {p q : SecurityPayload} (h : op.edit p = .ok (some q)) :
    q.securityEpoch = p.securityEpoch + 1 ∨ q.securityEpoch = bumped p.securityEpoch := by
  cases op with
  | bootstrapApSecrets secret =>
    rw [ok_of_guards (map_some_ok h)]
    exact .inl rfl
  | provisionInitial factoryAp activeAp consoleVerifier =>
    rw [ok_of_guards (map_some_ok h)]
    exact .inl rfl
  | replaceActiveApSecret current replacement =>
    rw [ok_of_guards (map_some_ok h)]
    exact .inr rfl
  | setConsoleVerifier record allowReplace =>
    rw [ok_of_guards (map_some_ok h)]
    exact .inl rfl
  | setMigrationState state =>
    replace h : storeSetMigrationState state p = .ok (some q) := h
    unfold storeSetMigrationState at h
    split at h
    · cases h
    · exact .inl (epoch_of_updateState (Except.ok.inj h))
  | setRecoveryState state =>
    replace h : storeSetRecoveryState state p = .ok (some q) := h
    unfold storeSetRecoveryState at h
    split at h
    · cases h
    · exact .inl (epoch_of_updateState (Except.ok.inj h))

end StoreOp

theorem SecurityPayload.epoch_of_valid {p : SecurityPayload} (h : p.valid = true) : p.securityEpoch ≠ 0 := by
  unfold valid at h
  split at h
  · cases h
  · next hgood =>
    simp only [not_or] at hgood
    exact hgood.2.2.1

/-- **A commit moves the epoch on**: one that would make it 0 is refused. -/
theorem StoreOp.epoch_of_commit {op : StoreOp} {p q : SecurityPayload} (h : op.edit p = .ok (some q))
    (hq : q.valid = true) : q.securityEpoch = bumped p.securityEpoch := by
  have hne := SecurityPayload.epoch_of_valid hq
  rcases op.edit_epoch h with hplus | hbumped
  · unfold bumped
    rw [if_neg (hplus ▸ hne)]
    exact hplus
  · exact hbumped

end Argus
