import ArgusPump.DirectoryStore
import ArgusPump.Lib.Packed

/-!
# The directory of humans and custom roles

`main/argus_security_directory.c`: the payload and its check, and
`argus_security_directory_init`.  The records are packed structs; `bytes` is their memory.

    a valid payload → its roles and humans are valid, packed and told apart by their
      identifiers, and no role mask reaches past the roles   (SecurityDirectoryPayload.valid_iff)

Left out: the queue's and the task's creation.
-/

namespace Argus

open Interact

/-! ## Records -/

/-- `bounded_printable_valid`. -/
def boundedPrintableValid {n : Nat} (value : Vector UInt8 n) (allowEmpty : Bool) : Bool :=
  if strlen value = n ∨ ¬ allowEmpty ∧ strlen value = 0 then false else (cString value).all isprint

/-- `argus_security_human_record_t`. -/
structure HumanRecord where
  recordVersion : UInt8
  level : UInt8
  enabled : UInt8
  protectedIdentity : UInt8
  identifier : Vector UInt8 37
  login : Vector UInt8 33
  displayName : Vector UInt8 49
  scope : Vector UInt8 37
  roleMask : UInt16
  directPermissions : PermissionSet
  credentialVersion : UInt32
  recordSecurityEpoch : UInt32
  revoked : UInt8
  reserved : Vector UInt8 3
  verifier : PasswordVerifier
deriving DecidableEq

namespace HumanRecord

def bytes (r : HumanRecord) : List UInt8 :=
  [r.recordVersion, r.level, r.enabled, r.protectedIdentity] ++ r.identifier.toList ++
    r.login.toList ++ r.displayName.toList ++ r.scope.toList ++ le16 r.roleMask ++
    le64 r.directPermissions ++ le32 r.credentialVersion ++ le32 r.recordSecurityEpoch ++
    [r.revoked] ++ r.reserved.toList ++ r.verifier.bytes

def zero : HumanRecord where
  recordVersion := 0
  level := 0
  enabled := 0
  protectedIdentity := 0
  identifier := .replicate 37 0
  login := .replicate 33 0
  displayName := .replicate 49 0
  scope := .replicate 37 0
  roleMask := 0
  directPermissions := 0
  credentialVersion := 0
  recordSecurityEpoch := 0
  revoked := 0
  reserved := .replicate 3 0
  verifier := .zero

/-- `argus_security_human_record_valid`. -/
def valid (r : HumanRecord) : Bool :=
  r.recordVersion = securityRecordVersion && r.level ≤ SecurityLevel.viewer.code &&
    r.enabled ≤ 1 && r.protectedIdentity ≤ 1 && boundedStringValid r.identifier false &&
    boundedStringValid r.login false && boundedPrintableValid r.displayName false &&
    boundedStringValid r.scope false && r.roleMask ≠ 0 && r.credentialVersion ≠ 0 &&
    r.recordSecurityEpoch ≠ 0 && r.revoked ≤ 1 && r.reserved = .replicate 3 0 &&
    ¬ (r.enabled ≠ 0 ∧ r.revoked ≠ 0) && r.directPermissions &&& ~~~permissionDefinedMask = 0 &&
    r.verifier.recordValid

/-- What `strcmp` compares. -/
def id (r : HumanRecord) : List UInt8 := cString r.identifier

end HumanRecord

/-- What `strcmp` compares. -/
def RoleRecord.id (r : RoleRecord) : List UInt8 := cString r.identifier

/-! ## The payload -/

def securityDirectorySchemaVersion : UInt16 := 1
def securityCustomRoleCapacity : UInt8 := securityMaxRoles - securityBuiltinRoleCount

/-- `argus_security_directory_payload_t`. -/
structure SecurityDirectoryPayload where
  schemaVersion : UInt16
  flags : UInt16
  customRoleCount : UInt8
  humanCount : UInt8
  reserved : UInt16
  customRoles : Vector RoleRecord 10
  humans : Vector HumanRecord 16
deriving DecidableEq

namespace SecurityDirectoryPayload

def bytes (p : SecurityDirectoryPayload) : List UInt8 :=
  le16 p.schemaVersion ++ le16 p.flags ++ [p.customRoleCount, p.humanCount] ++ le16 p.reserved ++
    p.customRoles.toList.flatMap RoleRecord.bytes ++ p.humans.toList.flatMap HumanRecord.bytes

def roleEntries (p : SecurityDirectoryPayload) : List RoleRecord :=
  Packed.entries p.customRoles p.customRoleCount.toNat

def humanEntries (p : SecurityDirectoryPayload) : List HumanRecord :=
  Packed.entries p.humans p.humanCount.toNat

/-- The check of a custom role in use. -/
def roleValid (role : RoleRecord) : Bool :=
  role.valid && role.builtin = 0 && role.level ≠ SecurityLevel.argusPersonnel.code &&
    role.permissions &&& permissionManageClientAdmins = 0

/-- `allowed_roles`: the bits of the built-in and custom roles there are. -/
def allowedRoles (p : SecurityDirectoryPayload) : UInt16 :=
  if 16 ≤ securityBuiltinRoleCount.toNat + p.customRoleCount.toNat then 0xFFFF
  else 1 <<< (securityBuiltinRoleCount.toUInt16 + p.customRoleCount.toUInt16) - 1

/-- The check of a human in use, less that of the identifier and the login. -/
def humanValid (p : SecurityDirectoryPayload) (human : HumanRecord) : Bool :=
  human.valid && human.roleMask &&& ~~~p.allowedRoles = 0 &&
    human.roleMask &&& 1 <<< human.level.toUInt16 ≠ 0

/-- `argus_security_directory_payload_valid`. -/
def valid (p : SecurityDirectoryPayload) : Bool :=
  if p.schemaVersion ≠ securityDirectorySchemaVersion ∨ p.flags ≠ 0 ∨ p.reserved ≠ 0 ∨
      p.customRoleCount > securityCustomRoleCapacity ∨ p.humanCount > securityMaxHumans then false
  else
    Packed.check roleValid (fun role other => role.id = other.id) .zero p.customRoles
        p.customRoleCount.toNat &&
      Packed.check p.humanValid
        (fun human other => human.id = other.id || cString human.login = cString other.login) .zero
        p.humans p.humanCount.toNat

def zero : SecurityDirectoryPayload := ⟨0, 0, 0, 0, 0, .replicate 10 .zero, .replicate 16 .zero⟩

/-- What the check of a payload is for. -/
structure Valid (p : SecurityDirectoryPayload) : Prop where
  header : p.schemaVersion = securityDirectorySchemaVersion ∧ p.flags = 0 ∧ p.reserved = 0
  roleCount : p.customRoleCount.toNat ≤ 10
  humanCount : p.humanCount.toNat ≤ 16
  roles : ∀ role ∈ p.roleEntries, roleValid role = true
  rolesKeyed : Packed.Keyed RoleRecord.id p.customRoles p.customRoleCount.toNat
  roleTail : Packed.ZeroTail .zero p.customRoles p.customRoleCount.toNat
  humans : ∀ human ∈ p.humanEntries, p.humanValid human = true
  humansKeyed : Packed.Keyed HumanRecord.id p.humans p.humanCount.toNat
  loginsKeyed : Packed.Keyed (fun human => cString human.login) p.humans p.humanCount.toNat
  humanTail : Packed.ZeroTail .zero p.humans p.humanCount.toNat

theorem valid_iff {p : SecurityDirectoryPayload} : p.valid = true ↔ p.Valid := by
  have hcap (n : UInt8) : n > securityCustomRoleCapacity ↔ 10 < n.toNat := UInt8.lt_iff_toNat_lt
  have hmax (n : UInt8) : n > securityMaxHumans ↔ 16 < n.toNat := UInt8.lt_iff_toNat_lt
  unfold valid
  split
  · next h =>
    rw [hcap, hmax] at h
    constructor
    · exact nofun
    · intro hv
      rcases h with h | h | h | h | h
      · exact absurd hv.header.1 h
      · exact absurd hv.header.2.1 h
      · exact absurd hv.header.2.2 h
      · exact absurd hv.roleCount (by omega)
      · exact absurd hv.humanCount (by omega)
  · next h =>
    rw [hcap, hmax] at h
    simp only [not_or, not_not, Nat.not_lt] at h
    obtain ⟨hschema, hflags, hreserved, hroles, hhumans⟩ := h
    rw [Bool.and_eq_true, Packed.check_iff hroles, Packed.check_iff hhumans]
    constructor
    · rintro ⟨⟨hr, hrp, hrt⟩, hh, hhp, hht⟩
      refine ⟨⟨hschema, hflags, hreserved⟩, hroles, hhumans, hr, Packed.keyed_iff.mpr hrp, hrt, hh,
        Packed.keyed_iff.mpr ?_, Packed.keyed_iff.mpr ?_, hht⟩
      · exact hhp.imp fun h => (Bool.or_eq_false_iff.mp h).1
      · exact hhp.imp fun h => (Bool.or_eq_false_iff.mp h).2
    · intro hv
      refine ⟨⟨hv.roles, Packed.keyed_iff.mp hv.rolesKeyed, hv.roleTail⟩, hv.humans, ?_, hv.humanTail⟩
      exact ((Packed.keyed_iff.mp hv.humansKeyed).and (Packed.keyed_iff.mp hv.loginsKeyed)).imp
        fun h => Bool.or_eq_false_iff.mpr h

end SecurityDirectoryPayload

/-- The constants of `argus_security_directory.c`. -/
def securityDirectory : DirectoryKind SecurityDirectoryPayload where
  magic := 0x41524433
  validMarker := 0x56414c44
  schemaVersion := securityDirectorySchemaVersion
  payloadLength := 4386
  payloadBytes := SecurityDirectoryPayload.bytes
  payloadValid := SecurityDirectoryPayload.valid
  empty := { SecurityDirectoryPayload.zero with schemaVersion := securityDirectorySchemaVersion }

theorem securityDirectory_empty_valid :
    securityDirectory.payloadValid securityDirectory.empty = true := by decide +kernel

/-! ## Init -/

/-- `s_snapshot`, `s_active_slot` and `s_initialized`. -/
structure SecurityDirectory where
  ram : DirectoryRam SecurityDirectoryPayload
  initialized : Bool

namespace SecurityDirectory

/-- The statics at boot. -/
def boot : SecurityDirectory := ⟨⟨⟨.zero, 0⟩, 0⟩, false⟩

/-- `commit_locked`, on the statics. -/
def commitLocked (s : SecurityDirectory) (payload : SecurityDirectoryPayload)
    (expectedGeneration : UInt32) :
    DirectoryProg SecurityDirectoryPayload (EspErr × SecurityDirectory) := do
  let (err, ram) ← s.ram.commitLocked securityDirectory true payload expectedGeneration
  return (err, { s with ram := ram })

/-- The slot the selector names, if it can be used. -/
def selected (a b : Except EspErr (DirectorySlot SecurityDirectoryPayload)) :
    Except EspErr UInt8 → Option (UInt8 × DirectorySlot SecurityDirectoryPayload)
  | .error _ => none
  | .ok selector =>
    if selector > 1 then none
    else (DirectorySlot.validSlot securityDirectory (if selector = 0 then a else b)).map fun slot => (selector, slot)

/-- `argus_security_directory_init`. -/
def init (s : SecurityDirectory) :
    DirectoryProg SecurityDirectoryPayload (EspErr × SecurityDirectory) :=
  if s.initialized then .ret (espOk, s)
  else
    .ask (.readSlot 0) fun a =>
    .ask (.readSlot 1) fun b =>
    if readFailed a ∨ readFailed b then .ret (espErrInvalidState, s)
    else if DirectorySlot.validSlot securityDirectory a = none ∧ DirectorySlot.validSlot securityDirectory b = none ∧
        ¬ (slotMissing a ∧ slotMissing b) then .ret (espErrInvalidState, s)
    else if slotMissing a ∧ slotMissing b then do
      let fresh := { s with ram := { s.ram with snapshot := ⟨securityDirectory.empty, 0⟩ } }
      let (err, s) ← fresh.commitLocked securityDirectory.empty 0
      if err ≠ espOk then return (err, s)
      return (espOk, { s with initialized := true })
    else
      .ask .readSelector fun selector =>
      match selected a b selector with
      | none => .ret (espErrInvalidState, s)
      | some (active, slot) =>
        .ret (espOk, ⟨⟨⟨slot.payload, slot.generation⟩, active⟩, true⟩)

/-- `argus_security_directory_commit`, once the writer has the request. -/
def commit (s : SecurityDirectory) (payload : SecurityDirectoryPayload) (expectedGeneration : UInt32) :
    DirectoryProg SecurityDirectoryPayload (EspErr × SecurityDirectory) :=
  if ¬ s.initialized then .ret (espErrInvalidState, s) else s.commitLocked payload expectedGeneration

end SecurityDirectory

end Argus
