import ArgusPump.SecurityDirectory

/-!
# The directory of machines

`main/argus_machine_directory.c`: the payload and its check,
`argus_machine_directory_select_for_test` and `argus_machine_directory_init`.  Unlike its
sibling this init goes on without a usable selector, and writes it anew.

    a valid payload → its records are valid, packed and told apart by their identifiers
                                                             (MachinePayload.valid_iff)

Left out: the queue's and the task's creation, `s_redundancy_degraded` and the status call.
-/

namespace Argus

open Interact

/-! ## Records -/

/-- `argus_security_machine_scope_valid`, from character `i` on: `segment` is
`segment_has_character`, `slash` whether the character before was one. -/
def machineScopeFrom (segment slash : Bool) : List UInt8 → Bool
  | [] => segment
  | c :: rest =>
    if isalnum c || c = 0x5F || c = 0x2D || c = 0x2E then machineScopeFrom true false rest
    else if c = 0x2F then
      if ¬ segment ∨ rest = [] then false else machineScopeFrom false true rest
    else if c = 0x2A then rest = [] && slash
    else false

/-- `argus_security_machine_scope_valid`. -/
def machineScopeValid {n : Nat} (value : Vector UInt8 n) : Bool :=
  if strlen value = 0 ∨ strlen value ≥ n then false
  else if cString value = [0x2A] then true
  else machineScopeFrom false false (cString value)

def machineClientTypeMin : UInt8 := 1
def machineClientTypeMax : UInt8 := 6
def machineTransportDefinedMask : UInt8 := 7
def machineInterfaceDefinedMask : UInt8 := 3

/-- `argus_security_machine_record_t`. -/
structure MachineRecord where
  recordVersion : UInt8
  enabled : UInt8
  clientType : UInt8
  allowedTransports : UInt8
  revoked : UInt8
  allowedInterfaces : UInt8
  roleMask : UInt16
  identifier : Vector UInt8 37
  displayName : Vector UInt8 49
  scope : Vector UInt8 37
  topicScope : Vector UInt8 97
  apiScope : Vector UInt8 65
  enrollmentActor : Vector UInt8 37
  permissions : PermissionSet
  credentialVersion : UInt32
  recordSecurityEpoch : UInt32
  principalRevision : UInt32
  verifier : PasswordVerifier
deriving DecidableEq

namespace MachineRecord

def bytes (r : MachineRecord) : List UInt8 :=
  [r.recordVersion, r.enabled, r.clientType, r.allowedTransports, r.revoked, r.allowedInterfaces] ++
    le16 r.roleMask ++ r.identifier.toList ++ r.displayName.toList ++ r.scope.toList ++
    r.topicScope.toList ++ r.apiScope.toList ++ r.enrollmentActor.toList ++ le64 r.permissions ++
    le32 r.credentialVersion ++ le32 r.recordSecurityEpoch ++ le32 r.principalRevision ++
    r.verifier.bytes

def zero : MachineRecord where
  recordVersion := 0
  enabled := 0
  clientType := 0
  allowedTransports := 0
  revoked := 0
  allowedInterfaces := 0
  roleMask := 0
  identifier := .replicate 37 0
  displayName := .replicate 49 0
  scope := .replicate 37 0
  topicScope := .replicate 97 0
  apiScope := .replicate 65 0
  enrollmentActor := .replicate 37 0
  permissions := 0
  credentialVersion := 0
  recordSecurityEpoch := 0
  principalRevision := 0
  verifier := .zero

/-- `argus_security_machine_record_valid`. -/
def valid (r : MachineRecord) : Bool :=
  r.recordVersion = securityRecordVersion && r.enabled ≤ 1 && r.revoked ≤ 1 &&
    ¬ (r.enabled ≠ 0 ∧ r.revoked ≠ 0) && machineClientTypeMin ≤ r.clientType &&
    r.clientType ≤ machineClientTypeMax && r.allowedTransports ≠ 0 &&
    r.allowedTransports &&& ~~~machineTransportDefinedMask = 0 && r.allowedInterfaces ≠ 0 &&
    r.allowedInterfaces &&& ~~~machineInterfaceDefinedMask = 0 &&
    boundedStringValid r.identifier false && boundedPrintableValid r.displayName false &&
    machineScopeValid r.scope && boundedPrintableValid r.topicScope true &&
    boundedPrintableValid r.apiScope true && boundedStringValid r.enrollmentActor false &&
    r.permissions &&& ~~~permissionDefinedMask = 0 && r.credentialVersion ≠ 0 &&
    r.recordSecurityEpoch ≠ 0 && r.principalRevision ≠ 0 && r.verifier.recordValid

/-- What `strcmp` compares. -/
def id (r : MachineRecord) : List UInt8 := cString r.identifier

end MachineRecord

/-! ## The payload -/

def machineDirectorySchemaVersion : UInt16 := 1

/-- `argus_machine_directory_payload_t`. -/
structure MachinePayload where
  schemaVersion : UInt16
  machineCount : UInt8
  reserved : UInt8
  machines : Vector MachineRecord 16
deriving DecidableEq

namespace MachinePayload

def bytes (p : MachinePayload) : List UInt8 :=
  le16 p.schemaVersion ++ [p.machineCount, p.reserved] ++ p.machines.toList.flatMap MachineRecord.bytes

def entries (p : MachinePayload) : List MachineRecord :=
  Packed.entries p.machines p.machineCount.toNat

/-- `argus_machine_directory_payload_valid`. -/
def valid (p : MachinePayload) : Bool :=
  if p.schemaVersion ≠ machineDirectorySchemaVersion ∨ p.machineCount > securityMaxMachines ∨
      p.reserved ≠ 0 then false
  else
    Packed.check MachineRecord.valid (fun machine other => machine.id = other.id) .zero p.machines
      p.machineCount.toNat

def zero : MachinePayload := ⟨0, 0, 0, .replicate 16 .zero⟩

/-- What the check of a payload is for. -/
structure Valid (p : MachinePayload) : Prop where
  header : p.schemaVersion = machineDirectorySchemaVersion ∧ p.reserved = 0
  count : p.machineCount.toNat ≤ 16
  machines : ∀ machine ∈ p.entries, machine.valid = true
  keyed : Packed.Keyed MachineRecord.id p.machines p.machineCount.toNat
  tail : Packed.ZeroTail .zero p.machines p.machineCount.toNat

theorem valid_iff {p : MachinePayload} : p.valid = true ↔ p.Valid := by
  have hmax : p.machineCount > securityMaxMachines ↔ 16 < p.machineCount.toNat :=
    UInt8.lt_iff_toNat_lt
  unfold valid
  split
  · next h =>
    rw [hmax] at h
    constructor
    · intro hfalse
      cases hfalse
    · intro hv
      rcases h with h | h | h
      · exact absurd hv.header.1 h
      · exact absurd hv.count (by omega)
      · exact absurd hv.header.2 h
  · next h =>
    rw [hmax] at h
    simp only [not_or, not_not, Nat.not_lt] at h
    obtain ⟨hschema, hcount, hreserved⟩ := h
    rw [Packed.check_iff hcount, ← Packed.keyed_iff]
    constructor
    · rintro ⟨hm, hk, ht⟩
      exact ⟨⟨hschema, hreserved⟩, hcount, hm, hk, ht⟩
    · intro hv
      exact ⟨hv.machines, hv.keyed, hv.tail⟩

end MachinePayload

/-- The constants of `argus_machine_directory.h`. -/
def machineDirectory : DirectoryKind MachinePayload where
  magic := 0x41524d34
  validMarker := 0x4d434c54
  schemaVersion := machineDirectorySchemaVersion
  payloadLength := 6500
  payloadBytes := MachinePayload.bytes
  payloadValid := MachinePayload.valid
  empty := { MachinePayload.zero with schemaVersion := machineDirectorySchemaVersion }

theorem machineDirectory_empty_valid :
    machineDirectory.payloadValid machineDirectory.empty = true := by decide +kernel

/-! ## Init -/

/-- `argus_machine_directory_state_t`. -/
inductive MachineDirectoryState
  | missing
  | ready
  | corrupt
  | unsupported
  | unavailable
deriving DecidableEq

/-- `s_snapshot`, `s_active_slot`, `s_state` and `s_initialized`. -/
structure MachineDirectory where
  ram : DirectoryRam MachinePayload
  state : MachineDirectoryState
  initialized : Bool

namespace MachineDirectory

/-- The statics at boot. -/
def boot : MachineDirectory := ⟨⟨⟨.zero, 0⟩, 0⟩, .missing, false⟩

/-- A slot of this directory in another version. -/
def slotUnsupported : Except EspErr (DirectorySlot MachinePayload) → Bool
  | .ok slot => slot.magic = machineDirectory.magic && slot.schemaVersion ≠ machineDirectory.schemaVersion
  | .error _ => false

/-- The selector, if it names a valid slot. -/
def usableSelector (a b : Option (DirectorySlot MachinePayload)) : Except EspErr UInt8 → Option UInt8
  | .ok selector =>
    if selector ≤ 1 ∧ (selector = 0 ∧ a.isSome ∨ selector = 1 ∧ b.isSome) then some selector else none
  | .error _ => none

/-- The slot chosen without a selector. -/
def chosenSlot (a b : Option (DirectorySlot MachinePayload)) : UInt8 :=
  match a, b with
  | some a, some b => if b.generation > a.generation then 1 else 0
  | some _, none => 0
  | none, _ => 1

/-- `argus_machine_directory_select_for_test`: the snapshot, the active slot and whether
the selector is to be repaired. -/
def select (a b : Except EspErr (DirectorySlot MachinePayload)) (selector : Except EspErr UInt8) :
    Except EspErr (DirectoryRam MachinePayload × Bool) :=
  let aValid := DirectorySlot.validSlot machineDirectory a
  let bValid := DirectorySlot.validSlot machineDirectory b
  if slotMissing a ∧ slotMissing b then .error espErrNotFound
  else if readFailed a ∨ readFailed b then .error espErrInvalidState
  else
    let chosen := (usableSelector aValid bValid selector).getD (chosenSlot aValid bValid)
    match if chosen = 0 then aValid else bValid with
    | none => .error (if slotUnsupported a ∨ slotUnsupported b then espErrNotSupported else espErrInvalidCrc)
    | some slot =>
      .ok (⟨⟨slot.payload, slot.generation⟩, chosen⟩, (usableSelector aValid bValid selector).isNone)

/-- `commit_locked`, on the statics. -/
def commitLocked (s : MachineDirectory) (payload : MachinePayload) (expectedGeneration : UInt32) :
    DirectoryProg MachinePayload (EspErr × MachineDirectory) := do
  let (err, ram) ← s.ram.commitLocked machineDirectory (s.state = .ready) payload expectedGeneration
  return (err, { s with ram := ram })

/-- The end of init: the queue and the task, unless something failed. -/
def finish (err : EspErr) (s : MachineDirectory) :
    DirectoryProg MachinePayload (EspErr × MachineDirectory) :=
  if err ≠ espOk then .ret (err, s) else .ret (espOk, { s with initialized := true })

/-- `argus_machine_directory_init`. -/
def init (s : MachineDirectory) : DirectoryProg MachinePayload (EspErr × MachineDirectory) :=
  if s.initialized then .ret (espOk, s)
  else
    .ask (.readSlot 0) fun a =>
    .ask (.readSlot 1) fun b =>
    .ask .readSelector fun selector =>
    match select a b selector with
    | .ok (ram, repair) =>
      let s := { s with ram := ram, state := .ready }
      if repair then .ask (.writeSelector ram.activeSlot) fun err => finish err s
      else finish espOk s
    | .error err =>
      if err = espErrNotFound then do
        let s := { s with
          ram := { s.ram with snapshot := ⟨machineDirectory.empty, 0⟩ }
          state := .ready }
        let (err, s) ← s.commitLocked machineDirectory.empty 0
        finish err s
      else
        finish err { s with state := if err = espErrNotSupported then .unsupported else .corrupt }

/-- `argus_machine_directory_commit`, once the writer has the request. -/
def commit (s : MachineDirectory) (payload : MachinePayload) (expectedGeneration : UInt32) :
    DirectoryProg MachinePayload (EspErr × MachineDirectory) :=
  if ¬ s.initialized ∨ s.state ≠ .ready then .ret (espErrInvalidState, s)
  else s.commitLocked payload expectedGeneration

end MachineDirectory

end Argus
