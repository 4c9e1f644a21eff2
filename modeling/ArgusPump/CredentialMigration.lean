import ArgusPump.SecurityStoreEdits
import ArgusPump.Lib.Prog
import ArgusPump.Lib.Sha256
import ArgusPump.Lib.Run

/-!
# Migration of the legacy credential

`main/argus_security_migration.c`: at each boot, `argus_security_migration_run` moves the portal's
plaintext password out of the namespace `argus_portal` and into a verifier of the security store.
A program over the NVS calls of the legacy operations and over the other hooks; the password
worker of `main/argus_password_verifier.c` derives and compares.

A run in which no operation fails asks `Ideal`; in any other an operation may also report a
failure, with or without having taken effect.  The store's operations are those of
`SecurityStoreEdits` on its snapshot, and a commit it refuses is a failure.
-/

namespace Argus

open Interact

namespace CredentialMigration

def passwordInputMax : Nat := 128
def passwordIterationsDefault : UInt32 := 25000
def migrationBuildDefaultDeferred : UInt8 := 3
def migrationFailed : UInt8 := 4
def espErrNvsInvalidLength : EspErr := 0x110C

/-! ## Passwords -/

/-- HMAC-SHA256, as `mbedtls_md_hmac_*` compute it. -/
@[irreducible] def hmac (key message : List UInt8) : Vector UInt8 32 :=
  let short := if key.length > 64 then (Sha256.digest key).toList else key
  let block := short ++ List.replicate (64 - short.length) 0
  Sha256.digest (block.map (· ^^^ 0x5C) ++ (Sha256.digest (block.map (· ^^^ 0x36) ++ message)).toList)

/-- The rounds of `argus_password_pbkdf2_for_test` after the first. -/
def pbkdf2Rounds (password : List UInt8) : Nat → Vector UInt8 32 → Vector UInt8 32 → Vector UInt8 32
  | 0, _, accumulator => accumulator
  | rounds + 1, digest, accumulator =>
    let digest := hmac password digest.toList
    pbkdf2Rounds password rounds digest (.zipWith (· ^^^ ·) accumulator digest)

/-- `argus_password_pbkdf2_for_test`. -/
@[irreducible] def pbkdf2 (password salt : List UInt8) (iterations : UInt32) : Vector UInt8 32 :=
  let digest := hmac password (salt ++ [0, 0, 0, 1])
  pbkdf2Rounds password (iterations.toNat - 1) digest digest

/-- `input_valid`. -/
def inputValid (password : List UInt8) : Bool := 0 < password.length && password.length ≤ passwordInputMax

/-- `derive_record`, for the salt `esp_fill_random` gives. -/
def deriveRecord (password : List UInt8) (iterations : UInt32) (salt : Vector UInt8 16) :
    Except EspErr PasswordVerifier :=
  if inputValid password = false ∨ iterations < 10000 ∨ iterations > 500000 then .error espErrInvalidArg
  else .ok ⟨1, 1, 16, 32, iterations, salt, pbkdf2 password salt.toList iterations⟩

/-- `verify_record`. -/
def verifyRecord (password : List UInt8) (record : PasswordVerifier) : Except EspErr Bool :=
  if inputValid password = false ∨ record.recordValid = false then .error espErrInvalidArg
  else .ok (pbkdf2 password record.salt.toList record.iterations = record.verifier)

/-! ## The calls -/

/-- The NVS calls on `argus_portal`, and the other hooks of `argus_security_migration_ops_t`. -/
inductive Request
  | openLegacy
  | getMarker
  | getPassword
  | openLegacyWrite
  | erasePassword
  | eraseMarker
  | commitLegacy
  | getVerifier
  | createVerifier (password : List UInt8)
  | setVerifier (record : PasswordVerifier)
  | verify (password : List UInt8) (record : PasswordVerifier)
  | setState (state : UInt8)

abbrev Request.Answer : Request → Type
  | .getMarker => Except EspErr UInt8
  | .getPassword => Except EspErr (List UInt8)
  | .getVerifier | .createVerifier _ => Except EspErr PasswordVerifier
  | .verify _ _ => Except EspErr Bool
  | _ => EspErr

abbrev MigrationProg := Prog Request Request.Answer

/-! ## The program -/

/-- What `inspect_legacy` stores; a string is its bytes before the NUL. -/
structure LegacyFound where
  markerPresent : Bool
  plaintext : Option (List UInt8)

/-- `inspect_legacy`. -/
def inspectLegacy : MigrationProg (EspErr × LegacyFound) :=
  .ask .openLegacy fun err =>
    if err = espErrNvsNotFound then .ret (espOk, ⟨false, none⟩)
    else if err ≠ espOk then .ret (err, ⟨false, none⟩)
    else
      .ask .getMarker fun marker =>
        match marker with
        | .error err => .ret (if err = espErrNvsNotFound then espOk else espErrInvalidState, ⟨false, none⟩)
        | .ok marker =>
          if marker ≠ 1 then .ret (espErrInvalidState, ⟨false, none⟩)
          else
            .ask .getPassword fun password =>
              match password with
              | .error err => .ret (err, ⟨true, none⟩)
              | .ok password =>
                if password.length + 1 ≤ 1 ∨ password.length + 1 > passwordInputMax + 1 then
                  .ret (espErrInvalidSize, ⟨true, none⟩)
                else .ret (espOk, ⟨true, some password⟩)

/-- `delete_legacy_plaintext`. -/
def deleteLegacyPlaintext : MigrationProg EspErr :=
  .ask .openLegacyWrite fun err =>
    if err ≠ espOk then .ret err
    else
      .ask .erasePassword fun err =>
        if err ≠ espOk ∧ err ≠ espErrNvsNotFound then .ret err
        else
          .ask .eraseMarker fun err =>
            if err ≠ espOk ∧ err ≠ espErrNvsNotFound then .ret err
            else .ask .commitLegacy fun err => .ret err

/-- `argus_security_migration_status_t`. -/
structure MigrationStatus where
  legacyMarkerPresent : Bool
  legacyPlaintextPresent : Bool
  consoleVerifierPresent : Bool
  legacyPlaintextDeleted : Bool
  buildDefaultDeferred : Bool
deriving DecidableEq

/-- The label `fail`. -/
def fail (status : MigrationStatus) (err : EspErr) : MigrationProg (EspErr × MigrationStatus) :=
  .ask (.setState migrationFailed) fun _ => .ret (err, status)

/-- `argus_security_migration_execute` when there is no plaintext. -/
def withoutPlaintext (status : MigrationStatus) (stored : Except EspErr PasswordVerifier) :
    MigrationProg (EspErr × MigrationStatus) :=
  match stored with
  | .ok _ => .ask (.setState migrationComplete) fun err => .ret (err, status)
  | .error err =>
    if err ≠ espErrNotFound then .ret (err, status)
    else
      .ask (.setState migrationBuildDefaultDeferred) fun err =>
        .ret (err, { status with buildDefaultDeferred := true })

/-- The stored verifier, or a new one. -/
def obtainVerifier (password : List UInt8) (stored : Except EspErr PasswordVerifier) :
    MigrationProg (Except EspErr PasswordVerifier) :=
  match stored with
  | .ok record => .ret (.ok record)
  | .error err =>
    if err ≠ espErrNotFound then .ret (.error err)
    else
      .ask (.createVerifier password) fun created =>
        match created with
        | .error err => .ret (.error err)
        | .ok record =>
          .ask (.setVerifier record) fun err =>
            if err ≠ espOk then .ret (.error err) else .ask .getVerifier fun stored => .ret stored

/-- The plaintext is deleted when the stored verifier verifies it. -/
def proveAndDelete (password : List UInt8) (stored : PasswordVerifier) : MigrationProg EspErr :=
  .ask (.verify password stored) fun verified =>
    match verified with
    | .error err => .ret err
    | .ok isMatch => if isMatch = false then .ret espErrInvalidState else deleteLegacyPlaintext

/-- `argus_security_migration_execute` with a plaintext. -/
def withPlaintext (status : MigrationStatus) (password : List UInt8) (stored : Except EspErr PasswordVerifier) :
    MigrationProg (EspErr × MigrationStatus) :=
  obtainVerifier password stored >>= fun obtained =>
    match obtained with
    | .error err => fail status err
    | .ok record =>
      proveAndDelete password record >>= fun err =>
        if err ≠ espOk then fail { status with consoleVerifierPresent := true } err
        else
          .ask (.setState migrationComplete) fun err =>
            .ret (err, { status with consoleVerifierPresent := true, legacyPlaintextDeleted := true })

/-- `argus_security_migration_execute`, with the legacy operations of `argus_security_migration_run`. -/
def execute : MigrationProg (EspErr × MigrationStatus) :=
  inspectLegacy >>= fun out =>
    let status : MigrationStatus := ⟨out.2.markerPresent, out.2.plaintext.isSome, false, false, false⟩
    if out.1 ≠ espOk then fail status out.1
    else
      .ask .getVerifier fun stored =>
        let status := { status with consoleVerifierPresent := stored.isOk }
        match out.2.plaintext with
        | none => withoutPlaintext status stored
        | some password => withPlaintext status password stored

/-! ## What is stored -/

/-- The keys `pw_set` and `pw` of the namespace. -/
structure LegacyKeys where
  marker : Option UInt8
  password : Option (List UInt8)

/-- The namespace, if there is one; the store's payload, and its snapshot in memory. -/
structure Device where
  legacy : Option LegacyKeys
  flash : SecurityPayload
  snapshot : SecurityPayload

namespace Device

def marker (d : Device) : Option UInt8 := d.legacy.bind LegacyKeys.marker
def password (d : Device) : Option (List UInt8) := d.legacy.bind LegacyKeys.password

def withoutPassword (d : Device) : Device := { d with legacy := d.legacy.map fun k => { k with password := none } }
def withoutMarker (d : Device) : Device := { d with legacy := d.legacy.map fun k => { k with marker := none } }

/-- After a reboot the snapshot is what is stored. -/
def boot (d : Device) : Device := { d with snapshot := d.flash }

/-- `argus_security_store_get_console_verifier`. -/
def consoleVerifier (d : Device) : Except EspErr PasswordVerifier :=
  if d.snapshot.consoleVerifierProvisioned = 0 then .error espErrNotFound else .ok d.snapshot.consoleVerifier

/-- `nvs_get_u8` of the marker. -/
def readMarker (d : Device) : Except EspErr UInt8 := d.marker.elim (.error espErrNvsNotFound) .ok

/-- `nvs_get_str` of the password, into `ARGUS_PASSWORD_INPUT_MAX + 1` bytes. -/
def readPassword (d : Device) : Except EspErr (List UInt8) :=
  match d.password with
  | none => .error espErrNvsNotFound
  | some s => if s.length + 1 > passwordInputMax + 1 then .error espErrNvsInvalidLength else .ok s

/-- What an operation of the store writes. -/
def commits (d : Device) : StoreOp → Option SecurityPayload :=
  fun op => (op.edit d.snapshot).toOption.join

/-- What it answers when nothing fails. -/
def answers (d : Device) (op : StoreOp) : EspErr :=
  match op.edit d.snapshot with
  | .error err => err
  | .ok _ => espOk

def committed (d : Device) (op : StoreOp) : Device :=
  match d.commits op with
  | none => d
  | some payload => { d with flash := payload, snapshot := payload }

end Device

/-- No operation fails. -/
def Ideal : (q : Request) → Device → q.Answer → Device → Prop
  | .openLegacy, s, r, t => r = (if s.legacy.isNone then espErrNvsNotFound else espOk) ∧ t = s
  | .getMarker, s, r, t => r = s.readMarker ∧ t = s
  | .getPassword, s, r, t => r = s.readPassword ∧ t = s
  | .openLegacyWrite, s, r, t => r = espOk ∧ t = { s with legacy := some (s.legacy.getD ⟨none, none⟩) }
  | .erasePassword, s, r, t =>
    r = (if s.password.isNone then espErrNvsNotFound else espOk) ∧ t = s.withoutPassword
  | .eraseMarker, s, r, t => r = (if s.marker.isNone then espErrNvsNotFound else espOk) ∧ t = s.withoutMarker
  | .commitLegacy, s, r, t => r = espOk ∧ t = s
  | .getVerifier, s, r, t => r = s.consoleVerifier ∧ t = s
  | .createVerifier password, s, r, t =>
    (∃ salt, r = deriveRecord password passwordIterationsDefault salt) ∧ t = s
  | .verify password record, s, r, t => r = verifyRecord password record ∧ t = s
  | .setVerifier record, s, r, t =>
    r = s.answers (.setConsoleVerifier record false) ∧ t = s.committed (.setConsoleVerifier record false)
  | .setState state, s, r, t =>
    r = s.answers (.setMigrationState state) ∧ t = s.committed (.setMigrationState state)

/-- The operation reports a failure. -/
def Fails : (q : Request) → Device → q.Answer → Device → Prop
  | .openLegacy, s, r, t => (r ≠ espOk ∧ r ≠ espErrNvsNotFound) ∧ t = s
  | .getMarker, s, r, t => (∃ err, r = .error err ∧ err ≠ espErrNvsNotFound) ∧ t = s
  | .getPassword, s, r, t => (∃ err, r = .error err ∧ err ≠ espOk) ∧ t = s
  | .openLegacyWrite, s, r, t | .commitLegacy, s, r, t => r ≠ espOk ∧ t = s
  | .erasePassword, s, r, t => (r ≠ espOk ∧ r ≠ espErrNvsNotFound) ∧ (t = s ∨ t = s.withoutPassword)
  | .eraseMarker, s, r, t => (r ≠ espOk ∧ r ≠ espErrNvsNotFound) ∧ (t = s ∨ t = s.withoutMarker)
  | .getVerifier, s, r, t => (∃ err, r = .error err ∧ err ≠ espOk ∧ err ≠ espErrNotFound) ∧ t = s
  | .createVerifier _, s, r, t => (∃ err, r = .error err ∧ err ≠ espOk) ∧ t = s
  | .verify _ _, s, r, t => (∃ err, r = .error err ∧ err ≠ espOk) ∧ t = s
  | .setVerifier record, s, r, t =>
    r ≠ espOk ∧ (t = s ∨ ∃ p, s.commits (.setConsoleVerifier record false) = some p ∧ t = { s with flash := p })
  | .setState state, s, r, t =>
    r ≠ espOk ∧ (t = s ∨ ∃ p, s.commits (.setMigrationState state) = some p ∧ t = { s with flash := p })

def Call (q : Request) (s : Device) (r : q.Answer) (t : Device) : Prop := Ideal q s r t ∨ Fails q s r t

/-- A power loss in an operation. -/
def Cut (q : Request) (s t : Device) : Prop := ∃ r, Call q s r t

/-! ## Boots -/

inductive MigrationAct
  /-- A run in which no operation fails. -/
  | clean (err : EspErr) (status : MigrationStatus)
  | ran (err : EspErr) (status : MigrationStatus)
  | cut

/-- Each boot runs the migration. -/
inductive MigrationStep : Device → MigrationAct → Device → Prop
  | clean {d e : Device} {tr : List (Σ q, Request.Answer q)} {err : EspErr} {status : MigrationStatus} :
      Prog.Exec Ideal execute d.boot tr (err, status) e → MigrationStep d (.clean err status) e
  | ran {d e : Device} {tr : List (Σ q, Request.Answer q)} {err : EspErr} {status : MigrationStatus} :
      Prog.Exec Call execute d.boot tr (err, status) e → MigrationStep d (.ran err status) e
  | cut {d e : Device} : Prog.Crash Call Cut execute d.boot e → MigrationStep d .cut e

abbrev MigrationMove := Move Device MigrationAct

end CredentialMigration

end Argus
