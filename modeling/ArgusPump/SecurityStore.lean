import ArgusPump.NvsConfig

/-!
# The security store

`main/argus_security_store.c`: the manifest and its checks, `argus_security_store_core_init`
and `argus_security_store_core_commit` as programs over the driver's calls.  The structs
are packed; `bytes` is their memory, little-endian.

Left out: NULL arguments, the encrypted partition and the writer task.
-/

namespace Argus

open Interact

def espErrInvalidCrc : EspErr := 0x109

/-! ## Permissions -/

abbrev PermissionSet := UInt64

def permissionBit (n : UInt64) : PermissionSet := 1 <<< n

def permissionViewStatus : PermissionSet := permissionBit 0
def permissionRequestAuthority : PermissionSet := permissionBit 1
def permissionMotion : PermissionSet := permissionBit 2
def permissionSoftwareEstop : PermissionSet := permissionBit 3
def permissionResetSoftwareEstop : PermissionSet := permissionBit 4
def permissionAckAlarms : PermissionSet := permissionBit 5
def permissionManageUsers : PermissionSet := permissionBit 6
def permissionManageRoles : PermissionSet := permissionBit 7
def permissionManageClientAdmins : PermissionSet := permissionBit 8
def permissionEnrollMachines : PermissionSet := permissionBit 9
def permissionRevokeMachines : PermissionSet := permissionBit 10
def permissionViewAudit : PermissionSet := permissionBit 11
def permissionModifyIdentity : PermissionSet := permissionBit 16
def permissionModifyProtectedConfig : PermissionSet := permissionBit 17
def permissionCommission : PermissionSet := permissionBit 18
def permissionCalibrate : PermissionSet := permissionBit 19
def permissionManageFirmware : PermissionSet := permissionBit 20
def permissionFullSecurityReset : PermissionSet := permissionBit 22
def permissionDefinedMask : PermissionSet := permissionBit 23 - 1

inductive SecurityLevel
  | argusPersonnel
  | clientAdmin
  | supervisor
  | operator
  | viewer
  | machine
deriving DecidableEq

def SecurityLevel.code : SecurityLevel → UInt8
  | .argusPersonnel => 0
  | .clientAdmin => 1
  | .supervisor => 2
  | .operator => 3
  | .viewer => 4
  | .machine => 5

def securityLevelCount : UInt8 := 6

/-! ## The manifest -/

def securitySchemaVersion : UInt16 := 1
def securityRecordVersion : UInt8 := 1
def securitySlotMagic : UInt32 := 0x41524753
def securityValidMarker : UInt32 := 0x53454355
def securityMaxRoles : UInt8 := 16
def securityBuiltinRoleCount : UInt8 := 6
def securityMaxHumans : UInt8 := 16
def securityMaxMachines : UInt8 := 16
def securityApSecretMin : UInt8 := 8
def securityApSecretMax : UInt8 := 63
/-- `ARGUS_SECURITY_MIGRATION_FAILED`. -/
def securityMigrationMax : UInt8 := 4
/-- `ARGUS_SECURITY_RECOVERY_REQUESTED`. -/
def securityRecoveryMax : UInt8 := 1
def securityPayloadSize : UInt16 := 562

/-- A counter one on, never 0. -/
def bumped (v : UInt32) : UInt32 := if v + 1 = 0 then 1 else v + 1

theorem succ_toNat {count : UInt8} (h : count.toNat < 16) : (count + 1).toNat = count.toNat + 1 := by
  rw [UInt8.toNat_add]
  exact Nat.mod_eq_of_lt (by simp; omega)

theorem pred_toNat {count : UInt8} (h : 0 < count.toNat) : (count - 1).toNat = count.toNat - 1 := by
  rw [UInt8.toNat_sub_of_le]
  · rfl
  · exact UInt8.le_iff_toNat_le.mpr (by show 1 ≤ _; omega)

def le16 (v : UInt16) : List UInt8 := [v.toUInt8, (v >>> 8).toUInt8]

def le32 (v : UInt32) : List UInt8 := le16 v.toUInt16 ++ le16 (v >>> 16).toUInt16

def le64 (v : UInt64) : List UInt8 := le32 v.toUInt32 ++ le32 (v >>> 32).toUInt32

/-- `argus_password_verifier_t`. -/
structure PasswordVerifier where
  formatVersion : UInt8
  algorithm : UInt8
  saltLength : UInt8
  verifierLength : UInt8
  iterations : UInt32
  salt : Vector UInt8 16
  verifier : Vector UInt8 32
deriving DecidableEq

namespace PasswordVerifier

def bytes (r : PasswordVerifier) : List UInt8 :=
  [r.formatVersion, r.algorithm, r.saltLength, r.verifierLength] ++ le32 r.iterations ++
    r.salt.toList ++ r.verifier.toList

/-- `argus_password_verifier_record_valid`. -/
def recordValid (r : PasswordVerifier) : Bool :=
  r.formatVersion = 1 && r.algorithm = 1 && r.saltLength = 16 && r.verifierLength = 32 &&
    10000 ≤ r.iterations && r.iterations ≤ 500000

def zero : PasswordVerifier := ⟨0, 0, 0, 0, 0, .replicate 16 0, .replicate 32 0⟩

end PasswordVerifier

def someVerifier : PasswordVerifier := ⟨1, 1, 16, 32, 10000, .replicate 16 0, .replicate 32 0⟩

/-- `bounded_string_valid`. -/
def boundedStringValid {n : Nat} (value : Vector UInt8 n) (allowEmpty : Bool) : Bool :=
  if strlen value = n ∨ ¬ allowEmpty ∧ strlen value = 0 then false
  else (cString value).all identityChar

/-- `argus_security_role_record_t`. -/
structure RoleRecord where
  recordVersion : UInt8
  level : UInt8
  builtin : UInt8
  protectedRole : UInt8
  identifier : Vector UInt8 37
  permissions : PermissionSet
  delegablePermissions : PermissionSet
deriving DecidableEq

namespace RoleRecord

def bytes (r : RoleRecord) : List UInt8 :=
  [r.recordVersion, r.level, r.builtin, r.protectedRole] ++ r.identifier.toList ++
    le64 r.permissions ++ le64 r.delegablePermissions

/-- `argus_security_role_record_valid`. -/
def valid (r : RoleRecord) : Bool :=
  if r.recordVersion ≠ securityRecordVersion ∨ r.level ≥ securityLevelCount ∨ r.builtin > 1 ∨
      r.protectedRole > 1 ∨ ¬ boundedStringValid r.identifier false ∨
      r.permissions &&& ~~~permissionDefinedMask ≠ 0 ∨
      r.delegablePermissions &&& ~~~r.permissions ≠ 0 then false
  else if r.delegablePermissions &&& permissionManageClientAdmins ≠ 0 then false
  else true

def zero : RoleRecord := ⟨0, 0, 0, 0, .replicate 37 0, 0, 0⟩

end RoleRecord

/-- `argus_security_ap_secret_record_t`. -/
structure ApSecretRecord where
  recordVersion : UInt8
  provisioned : UInt8
  length : UInt8
  reserved : UInt8
  credentialVersion : UInt32
  value : Vector UInt8 64
deriving DecidableEq

namespace ApSecretRecord

def bytes (r : ApSecretRecord) : List UInt8 :=
  [r.recordVersion, r.provisioned, r.length, r.reserved] ++ le32 r.credentialVersion ++
    r.value.toList

/-- `ap_secret_valid`. -/
def valid (r : ApSecretRecord) : Bool :=
  if r.recordVersion ≠ securityRecordVersion ∨ r.provisioned > 1 ∨ r.reserved ≠ 0 then false
  else if r.provisioned = 0 then r.length = 0 && r.credentialVersion = 0
  else if r.length < securityApSecretMin ∨ r.length > securityApSecretMax ∨
      r.credentialVersion = 0 ∨ r.value.toList.getD r.length.toNat 0 ≠ 0 then false
  else (r.value.toList.take r.length.toNat).all isprint

def zero : ApSecretRecord := ⟨0, 0, 0, 0, 0, .replicate 64 0⟩

end ApSecretRecord

/-- `argus_security_payload_t`. -/
structure SecurityPayload where
  schemaVersion : UInt16
  flags : UInt16
  securityEpoch : UInt32
  roleCount : UInt8
  humanCount : UInt8
  machineCount : UInt8
  consoleVerifierProvisioned : UInt8
  consoleCredentialVersion : UInt32
  migrationState : UInt8
  recoveryState : UInt8
  reserved : UInt16
  builtinRoles : Vector RoleRecord 6
  factoryAp : ApSecretRecord
  activeAp : ApSecretRecord
  consoleVerifier : PasswordVerifier
deriving DecidableEq

namespace SecurityPayload

def bytes (p : SecurityPayload) : List UInt8 :=
  le16 p.schemaVersion ++ le16 p.flags ++ le32 p.securityEpoch ++
    [p.roleCount, p.humanCount, p.machineCount, p.consoleVerifierProvisioned] ++
    le32 p.consoleCredentialVersion ++ [p.migrationState, p.recoveryState] ++ le16 p.reserved ++
    p.builtinRoles.toList.flatMap RoleRecord.bytes ++ p.factoryAp.bytes ++ p.activeAp.bytes ++
    p.consoleVerifier.bytes

/-- `argus_security_payload_valid`. -/
def valid (p : SecurityPayload) : Bool :=
  if p.schemaVersion ≠ securitySchemaVersion ∨ p.flags ≠ 0 ∨ p.securityEpoch = 0 ∨
      p.roleCount < securityBuiltinRoleCount ∨ p.roleCount > securityMaxRoles ∨
      p.humanCount > securityMaxHumans ∨ p.machineCount > securityMaxMachines ∨
      p.consoleVerifierProvisioned > 1 ∨ p.migrationState > securityMigrationMax ∨
      p.recoveryState > securityRecoveryMax ∨ p.reserved ≠ 0 ∨ ¬ p.factoryAp.valid ∨
      ¬ p.activeAp.valid then false
  else if (List.finRange 6).any (fun i => ¬ p.builtinRoles[i].valid ∨
      p.builtinRoles[i].level ≠ i.val.toUInt8 ∨ p.builtinRoles[i].builtin ≠ 1) then false
  else if p.consoleVerifierProvisioned ≠ 0 then
    if p.consoleCredentialVersion = 0 ∨ ¬ p.consoleVerifier.recordValid then false else true
  else if p.consoleCredentialVersion ≠ 0 then false
  else true

def zero : SecurityPayload where
  schemaVersion := 0
  flags := 0
  securityEpoch := 0
  roleCount := 0
  humanCount := 0
  machineCount := 0
  consoleVerifierProvisioned := 0
  consoleCredentialVersion := 0
  migrationState := 0
  recoveryState := 0
  reserved := 0
  builtinRoles := .replicate 6 .zero
  factoryAp := .zero
  activeAp := .zero
  consoleVerifier := .zero

end SecurityPayload

/-- `permissions_for_level`. -/
def permissionsForLevel : SecurityLevel → PermissionSet
  | .argusPersonnel => permissionDefinedMask
  | .clientAdmin => operational ||| permissionManageUsers ||| permissionManageRoles |||
      permissionEnrollMachines ||| permissionRevokeMachines ||| permissionViewAudit
  | .supervisor => operational
  | .operator => operational
  | .viewer => permissionViewStatus
  | .machine => 0
where
  operational : PermissionSet :=
    permissionViewStatus ||| permissionRequestAuthority ||| permissionMotion |||
      permissionSoftwareEstop ||| permissionResetSoftwareEstop ||| permissionAckAlarms

def builtinRole (level : SecurityLevel) (identifier : String) : RoleRecord where
  recordVersion := securityRecordVersion
  level := level.code
  builtin := 1
  protectedRole := if level = .argusPersonnel then 1 else 0
  identifier := charArray 37 (asciiBytes identifier)
  permissions := permissionsForLevel level
  delegablePermissions := permissionsForLevel level &&&
    ~~~(permissionManageClientAdmins ||| permissionModifyIdentity |||
      permissionModifyProtectedConfig ||| permissionCommission ||| permissionCalibrate |||
      permissionManageFirmware ||| permissionFullSecurityReset)

/-- `argus_security_store_default_payload`. -/
def SecurityPayload.default : SecurityPayload := { zero with
  schemaVersion := securitySchemaVersion
  securityEpoch := 1
  roleCount := securityBuiltinRoleCount
  builtinRoles := #v[builtinRole .argusPersonnel "argus_personnel",
    builtinRole .clientAdmin "client_admin", builtinRole .supervisor "supervisor",
    builtinRole .operator "operator", builtinRole .viewer "viewer",
    builtinRole .machine "machine_identity"]
  factoryAp := { ApSecretRecord.zero with recordVersion := securityRecordVersion }
  activeAp := { ApSecretRecord.zero with recordVersion := securityRecordVersion } }

theorem SecurityPayload.default_valid : SecurityPayload.default.valid = true := by decide +kernel

/-! ## Slots -/

/-- `crc32_bytes`. -/
def crc32Bytes (data : List UInt8) : UInt32 := calcCrc32Raw data

/-- `argus_security_slot_t`. -/
structure SecuritySlot where
  magic : UInt32
  schemaVersion : UInt16
  payloadLength : UInt16
  generation : UInt32
  crc32 : UInt32
  validMarker : UInt32
  payload : SecurityPayload
deriving DecidableEq

namespace SecuritySlot

/-- `slot_current_valid`. -/
def currentValid (slot : SecuritySlot) : Bool :=
  slot.magic = securitySlotMagic && slot.schemaVersion = securitySchemaVersion &&
    slot.payloadLength = securityPayloadSize && slot.generation ≠ 0 &&
    slot.validMarker = securityValidMarker && slot.crc32 = crc32Bytes slot.payload.bytes &&
    slot.payload.valid

/-- `slot_unsupported`. -/
def unsupported (slot : SecuritySlot) : Bool :=
  slot.magic = securitySlotMagic && slot.schemaVersion ≠ securitySchemaVersion

/-- The slot commit writes. -/
def current (generation : UInt32) (payload : SecurityPayload) : SecuritySlot where
  magic := securitySlotMagic
  schemaVersion := securitySchemaVersion
  payloadLength := securityPayloadSize
  generation := generation
  crc32 := crc32Bytes payload.bytes
  validMarker := securityValidMarker
  payload := payload

theorem current_valid {generation : UInt32} {payload : SecurityPayload} (hg : generation ≠ 0)
    (hp : payload.valid = true) : (current generation payload).currentValid = true := by
  simp [currentValid, current, hg, hp]

end SecuritySlot

/-! ## The core -/

/-- The calls of `argus_security_store_driver_t`. -/
inductive SecurityCall
  | readSlot (index : UInt8)
  | writeSlot (index : UInt8) (slot : SecuritySlot)
  | readSelector
  | writeSelector (selector : UInt8)

abbrev SecurityCall.Answer : SecurityCall → Type
  | .readSlot _ => Except EspErr SecuritySlot
  | .writeSlot _ _ => EspErr
  | .readSelector => Except EspErr UInt8
  | .writeSelector _ => EspErr

abbrev SecurityProg := Prog SecurityCall SecurityCall.Answer

/-- `argus_security_store_state_t`. -/
inductive SecurityState
  | missing
  | unprovisioned
  | ready
  | corrupt
  | unsupportedVersion
  | unavailable
deriving DecidableEq

/-- `argus_security_store_core_t`. -/
structure SecurityCore where
  active : SecurityPayload
  generation : UInt32
  activeSlot : UInt8
  state : SecurityState
  redundancyDegraded : Bool
deriving DecidableEq

/-- `err == ESP_ERR_NVS_NOT_FOUND || err == ESP_ERR_NOT_FOUND`. -/
def isMissing (err : EspErr) : Bool := err = espErrNvsNotFound || err = espErrNotFound

/-- A read that failed for another reason than a missing key. -/
def readFailed {α : Type} : Except EspErr α → Bool
  | .ok _ => false
  | .error err => ¬ isMissing err

def validManifest : Except EspErr SecuritySlot → Option SecuritySlot
  | .ok slot => if slot.currentValid then some slot else none
  | .error _ => none

def unsupportedManifest : Except EspErr SecuritySlot → Bool
  | .ok slot => slot.unsupported
  | .error _ => false

/-- `READY` with both access point secrets, else `UNPROVISIONED`. -/
def SecurityPayload.storeState (p : SecurityPayload) : SecurityState :=
  if p.factoryAp.provisioned ≠ 0 ∧ p.activeAp.provisioned ≠ 0 then .ready else .unprovisioned

namespace SecurityCore

/-- After the `memset`. -/
def zero : SecurityCore := ⟨.zero, 0, 0, .missing, false⟩

/-- The end of init: the selector's slot, or the other one if only that is valid. -/
def select (a b : Option SecuritySlot) (selector : UInt8) : SecurityCore :=
  let use (chosen : UInt8) (slot : SecuritySlot) : SecurityCore :=
    { active := slot.payload
      generation := slot.generation
      activeSlot := chosen
      state := slot.payload.storeState
      redundancyDegraded := ¬ (a.isSome ∧ b.isSome) }
  match if selector = 0 then a else b, if selector = 0 then b else a with
  | some slot, _ => use selector slot
  | none, some slot => use (selector ^^^ 1) slot
  | none, none => { zero with state := .corrupt }

/-- `argus_security_store_core_init`. -/
def init : SecurityProg (EspErr × SecurityCore) :=
  .ask (.readSlot 0) fun a =>
  .ask (.readSlot 1) fun b =>
  if readFailed a ∨ readFailed b then .ret (espOk, { zero with state := .unavailable })
  else if validManifest a = none ∧ validManifest b = none then
    .ret (espOk, { zero with
      active := .default
      state :=
        match a, b with
        | .error _, .error _ => .missing
        | _, _ =>
          if unsupportedManifest a ∨ unsupportedManifest b then .unsupportedVersion
          else .corrupt })
  else
    .ask .readSelector fun selector =>
    match selector with
    | .error err =>
      .ret (espOk, { zero with state := if isMissing err then .corrupt else .unavailable })
    | .ok selector =>
      if selector > 1 then .ret (espOk, { zero with state := .corrupt })
      else .ret (espOk, select (validManifest a) (validManifest b) selector)

/-- What commit refuses before any driver call. -/
def Refuses (core : SecurityCore) (payload : SecurityPayload) : Prop :=
  payload.valid = false ∨ core.state = .corrupt ∨ core.state = .unsupportedVersion ∨
    core.state = .unavailable

instance (core : SecurityCore) (payload : SecurityPayload) : Decidable (core.Refuses payload) :=
  inferInstanceAs (Decidable (_ ∨ _ ∨ _ ∨ _))

/-- The slot commit writes to. -/
def target (core : SecurityCore) : UInt8 := if core.generation = 0 then 0 else core.activeSlot ^^^ 1

def nextGeneration (core : SecurityCore) : UInt32 :=
  if core.generation + 1 = 0 then 1 else core.generation + 1

/-- The core after a commit. -/
def committed (core : SecurityCore) (payload : SecurityPayload) : SecurityCore where
  active := payload
  generation := core.nextGeneration
  activeSlot := core.target
  state := payload.storeState
  redundancyDegraded := core.nextGeneration < 2

/-- `argus_security_store_core_commit`. -/
def commit (core : SecurityCore) (payload : SecurityPayload) : SecurityProg (EspErr × SecurityCore) :=
  if core.Refuses payload then .ret (espErrInvalidState, core)
  else
    let slot := SecuritySlot.current core.nextGeneration payload
    .ask (.writeSlot core.target slot) fun err =>
    if err ≠ espOk then .ret (err, core)
    else
      .ask (.readSlot core.target) fun readback =>
      match readback with
      | .error err => .ret (err, core)
      | .ok back =>
        if back.currentValid = false ∨ back ≠ slot then .ret (espErrInvalidCrc, core)
        else
          .ask (.writeSelector core.target) fun err =>
          if err ≠ espOk then .ret (err, core) else .ret (espOk, core.committed payload)

end SecurityCore

end Argus
