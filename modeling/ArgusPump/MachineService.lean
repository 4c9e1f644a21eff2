import ArgusPump.Authorization
import ArgusPump.Broker
import ArgusPump.MachineDirectory
import ArgusPump.MqttTopics

/-!
# The machine service

`main/argus_machine_service.c`: the operations on machine records, each an edit of a
snapshot that is then committed with the snapshot's generation, and authentication and
revalidation against the directory.

    an edit that succeeds → it adds a record, changes one, or deletes a revoked one
                                                                      (MachineOp.effect)
    no two commits share a snapshot, so the service makes one edit after another of the
      current one                                                     (MachineStep)

What random numbers and the password verifier give is an input.  Left out: NULL arguments,
failing allocations, a service or directory that is not ready, and the throttling of
`argus_machine_service_authenticate`, of which only the refusal is an input.
-/

namespace Argus

/-! ## Checks -/

/-- `bounded_text`. -/
def machineText {n : Nat} (value : Vector UInt8 n) (emptyOk : Bool) : Bool :=
  boundedText (cString value) n emptyOk

/-- `argus_machine_service_scope_contains`. -/
def machineScopeContains (actorScope targetScope : List UInt8) : Bool :=
  if actorScope = [0x2A] then targetScope ≠ []
  else if actorScope = targetScope then true
  else actorScope.getLast? = some 0x2A && actorScope.dropLast.isPrefixOf targetScope

/-- `argus_machine_enrollment_request_t`. -/
structure MachineEnrollmentRequest where
  displayName : Vector UInt8 49
  clientType : UInt32
  allowedTransports : UInt8
  allowedInterfaces : UInt8
  scope : Vector UInt8 37
  topicScope : Vector UInt8 97
  apiScope : Vector UInt8 65
  permissions : PermissionSet
deriving DecidableEq

/-- `enrollment_request_valid`. -/
def enrollmentRequestValid (request : MachineEnrollmentRequest) : Bool :=
  machineText request.displayName false && machineClientTypeMin.toUInt32 ≤ request.clientType &&
    request.clientType ≤ machineClientTypeMax.toUInt32 && request.allowedTransports ≠ 0 &&
    request.allowedTransports &&& ~~~machineTransportDefinedMask = 0 &&
    request.allowedInterfaces ≠ 0 &&
    request.allowedInterfaces &&& ~~~machineInterfaceDefinedMask = 0 &&
    machineScopeValid request.scope && machineText request.topicScope false &&
    (cString request.topicScope).all (fun c => c ≠ 0x2B && c ≠ 0x23) &&
    machineText request.apiScope true && request.permissions &&& ~~~permissionDefinedMask = 0

/-- What no machine is given. -/
def machineForbidden : PermissionSet :=
  permissionManageUsers ||| permissionManageRoles ||| permissionManageClientAdmins |||
    permissionEnrollMachines ||| permissionRevokeMachines ||| permissionViewAudit |||
    permissionManageNetwork ||| permissionChangeApSecret ||| permissionManageClientNetwork |||
    permissionManageMqtt ||| permissionModifyIdentity ||| permissionModifyProtectedConfig |||
    permissionCommission ||| permissionCalibrate ||| permissionManageFirmware |||
    permissionInvokeRecovery ||| permissionFullSecurityReset

/-- `actor_can_manage`. -/
def actorCanManage (actor : AuthorizationPrincipal) (required : PermissionSet) (scope : List UInt8)
    (requested : PermissionSet) : Bool :=
  principalValid actor && authorizationRequire actor required = .allow &&
    machineScopeContains (cString actor.scope) scope &&
    requested &&& ~~~actor.delegablePermissions = 0 && requested &&& machineForbidden = 0

/-- `argus_machine_service_enrollment_allowed`. -/
def enrollmentAllowed (actor : AuthorizationPrincipal) (request : MachineEnrollmentRequest) : Bool :=
  enrollmentRequestValid request &&
    actorCanManage actor permissionEnrollMachines (cString request.scope) request.permissions

/-- `random_identifier`. -/
def randomIdentifier (random : Vector UInt8 15) : List UInt8 :=
  0x6D :: 0x2D :: random.toList.flatMap fun (b : UInt8) =>
    [hexDigit (b >>> 4).toNat, hexDigit (b &&& 0x0F).toNat]

theorem hexDigit_ne_zero {n : Nat} (h : n < 16) : hexDigit n ≠ 0 := by
  have hall : ∀ i : Fin 16, hexDigit i.val ≠ 0 := by decide
  exact hall ⟨n, h⟩

theorem randomIdentifier_length (random : Vector UInt8 15) : (randomIdentifier random).length = 32 := by
  simp [randomIdentifier]

theorem zero_not_mem_randomIdentifier (random : Vector UInt8 15) : 0 ∉ randomIdentifier random := by
  unfold randomIdentifier
  simp only [List.mem_cons, List.mem_flatMap, not_or, not_exists, not_and]
  refine ⟨by decide, by decide, fun b _ => ⟨?_, ?_, List.not_mem_nil⟩⟩
  · have hb : (b >>> 4).toNat < 16 := by
      have := b.toNat_lt
      rw [UInt8.toNat_shiftRight]
      simp [Nat.shiftRight_eq_div_pow]
      omega
    exact (hexDigit_ne_zero hb).symm
  · have hb : (b &&& 0x0F).toNat < 16 := by
      rw [UInt8.toNat_and]
      exact Nat.lt_succ_of_le Nat.and_le_right
    exact (hexDigit_ne_zero hb).symm

/-- A character of the alphabet of `base64url_secret`. -/
def base64urlChar (v : Nat) : UInt8 :=
  if v < 26 then 0x41 + v.toUInt8
  else if v < 52 then 0x61 + (v - 26).toUInt8
  else if v < 62 then 0x30 + (v - 52).toUInt8
  else if v = 62 then 0x2D
  else 0x5F

/-- `base64url_secret`. -/
def base64url : List UInt8 → List UInt8
  | a :: b :: c :: rest =>
    let value := a.toNat * 65536 + b.toNat * 256 + c.toNat
    base64urlChar (value / 262144) :: base64urlChar (value / 4096 % 64) ::
      base64urlChar (value / 64 % 64) :: base64urlChar (value % 64) :: base64url rest
  | [a, b] =>
    let value := a.toNat * 65536 + b.toNat * 256
    [base64urlChar (value / 262144), base64urlChar (value / 4096 % 64), base64urlChar (value / 64 % 64)]
  | _ => []

/-! ## Edits of a record -/

abbrev MachineSnapshot := DirectorySnapshot MachinePayload

/-- The record a snapshot has under an identifier. -/
def MachinePayload.find (payload : MachinePayload) (identifier : List UInt8) : Option MachineRecord :=
  Packed.get? MachineRecord.id payload.machines payload.machineCount.toNat identifier

/-- The marks every edit leaves. -/
def MachineRecord.touched (r : MachineRecord) (s : MachineSnapshot) : MachineRecord :=
  { r with principalRevision := bumped r.principalRevision, recordSecurityEpoch := s.generation + 1 }

def MachinePayload.store (payload : MachinePayload) (i : Fin 16) (r : MachineRecord) : MachinePayload :=
  { payload with machines := payload.machines.set i r }

/-- `mutable_target`. -/
def mutableTarget (actor : AuthorizationPrincipal) (identifier : List UInt8) (required : PermissionSet)
    (payload : MachinePayload) : Except EspErr (Fin 16) :=
  if ¬ principalValid actor ∨ authorizationRequire actor required ≠ .allow then .error espErrNotAllowed
  else
    match Packed.find? payload.machines payload.machineCount.toNat fun r => r.id = identifier with
    | none => .error espErrNotFound
    | some i =>
      if ¬ machineScopeContains (cString actor.scope) (cString payload.machines[i].scope) then
        .error espErrNotAllowed
      else .ok i

/-- The operations that change the record of a target in place. -/
def machineUpdate (actor : AuthorizationPrincipal) (identifier : List UInt8) (required : PermissionSet)
    (change : MachineRecord → Except EspErr MachineRecord) (s : MachineSnapshot) :
    Except EspErr MachinePayload :=
  match mutableTarget actor identifier required s.payload with
  | .error err => .error err
  | .ok i =>
    match change s.payload.machines[i] with
    | .error err => .error err
    | .ok r => .ok (s.payload.store i (r.touched s))

/-! ## The operations -/

theorem machineCount_lt {count : UInt8} (h : ¬ count ≥ securityMaxMachines) : count.toNat < 16 := by
  rw [ge_iff_le, UInt8.not_le] at h
  exact UInt8.lt_iff_toNat_lt.mp h

/-- The first of eight random identifiers that no record has. -/
def freshIdentifier (payload : MachinePayload) (draws : Vector (Vector UInt8 15) 8) :
    Option (List UInt8) :=
  (draws.toList.map randomIdentifier).find? fun identifier =>
    payload.entries.all fun r => r.id ≠ identifier

/-- The record of an enrollment. -/
def enrolledRecord (actor : AuthorizationPrincipal) (request : MachineEnrollmentRequest)
    (identifier : List UInt8) (verifier : PasswordVerifier) (s : MachineSnapshot) : MachineRecord where
  recordVersion := securityRecordVersion
  enabled := 1
  clientType := request.clientType.toUInt8
  allowedTransports := request.allowedTransports
  revoked := 0
  allowedInterfaces := request.allowedInterfaces
  roleMask := 0
  identifier := strlcpy 37 identifier
  displayName := strlcpy 49 (cString request.displayName)
  scope := strlcpy 37 (cString request.scope)
  topicScope := strlcpy 97 (cString request.topicScope)
  apiScope := strlcpy 65 (cString request.apiScope)
  enrollmentActor := strlcpy 37 (cString actor.identifier)
  permissions := request.permissions
  credentialVersion := 1
  recordSecurityEpoch := s.generation + 1
  principalRevision := 1
  verifier := verifier

/-- `argus_machine_service_enroll`, up to the commit. -/
def machineEnroll (actor : AuthorizationPrincipal) (request : MachineEnrollmentRequest)
    (draws : Vector (Vector UInt8 15) 8) (verifier : Except EspErr PasswordVerifier)
    (s : MachineSnapshot) : Except EspErr MachinePayload :=
  if ¬ enrollmentAllowed actor request then .error espErrNotAllowed
  else if h : s.payload.machineCount ≥ securityMaxMachines then .error espErrNoMem
  else
    match freshIdentifier s.payload draws, verifier with
    | none, _ => .error espErrInvalidState
    | some _, .error err => .error err
    | some identifier, .ok verifier =>
      .ok { s.payload with
        machines := s.payload.machines.set s.payload.machineCount.toNat
          (enrolledRecord actor request identifier verifier s) (machineCount_lt h)
        machineCount := s.payload.machineCount + 1 }

/-- `argus_machine_service_rotate`, up to the commit. -/
def machineRotate (actor : AuthorizationPrincipal) (identifier : List UInt8)
    (verifier : Except EspErr PasswordVerifier) : MachineSnapshot → Except EspErr MachinePayload :=
  machineUpdate actor identifier permissionEnrollMachines fun r =>
    match verifier with
    | .error err => .error err
    | .ok verifier => .ok { r with verifier := verifier, credentialVersion := bumped r.credentialVersion }

/-- `argus_machine_service_set_enabled`, up to the commit. -/
def machineSetEnabled (actor : AuthorizationPrincipal) (identifier : List UInt8) (enabled : Bool) :
    MachineSnapshot → Except EspErr MachinePayload :=
  machineUpdate actor identifier permissionRevokeMachines fun r =>
    if enabled ∧ r.revoked ≠ 0 then .error espErrInvalidState
    else .ok { r with enabled := if enabled then 1 else 0 }

/-- `argus_machine_service_set_permissions`, up to the commit. -/
def machineSetPermissions (actor : AuthorizationPrincipal) (identifier : List UInt8)
    (permissions : PermissionSet) (s : MachineSnapshot) : Except EspErr MachinePayload :=
  if permissions &&& ~~~permissionDefinedMask ≠ 0 then .error espErrInvalidArg
  else
    machineUpdate actor identifier permissionEnrollMachines (fun r =>
      if ¬ actorCanManage actor permissionEnrollMachines (cString r.scope) permissions then
        .error espErrNotAllowed
      else if r.revoked ≠ 0 then .error espErrInvalidState
      else .ok { r with permissions := permissions }) s

/-- `argus_machine_service_revoke`, up to the commit. -/
def machineRevoke (actor : AuthorizationPrincipal) (identifier : List UInt8) :
    MachineSnapshot → Except EspErr MachinePayload :=
  machineUpdate actor identifier permissionRevokeMachines fun r =>
    .ok { r with enabled := 0, revoked := 1, credentialVersion := bumped r.credentialVersion }

/-- `argus_machine_service_delete`, up to the commit. -/
def machineDelete (actor : AuthorizationPrincipal) (identifier : List UInt8) (s : MachineSnapshot) :
    Except EspErr MachinePayload :=
  match mutableTarget actor identifier permissionRevokeMachines s.payload with
  | .error err => .error err
  | .ok i =>
    if s.payload.machines[i].revoked = 0 then .error espErrInvalidState
    else
      .ok { s.payload with
        machines := Packed.eraseSwap .zero s.payload.machines s.payload.machineCount.toNat i
        machineCount := s.payload.machineCount - 1 }

/-- `argus_machine_service_quarantine_undisclosed`, up to the commit. -/
def machineQuarantine (identifier : List UInt8) (s : MachineSnapshot) : Except EspErr MachinePayload :=
  match Packed.find? s.payload.machines s.payload.machineCount.toNat fun r => r.id = identifier with
  | none => .error espErrNotFound
  | some i => .ok (s.payload.store i ({ s.payload.machines[i] with enabled := 0 }.touched s))

inductive MachineOp
  | enroll (actor : AuthorizationPrincipal) (request : MachineEnrollmentRequest)
      (draws : Vector (Vector UInt8 15) 8) (verifier : Except EspErr PasswordVerifier)
  | rotate (actor : AuthorizationPrincipal) (identifier : List UInt8)
      (verifier : Except EspErr PasswordVerifier)
  | setEnabled (actor : AuthorizationPrincipal) (identifier : List UInt8) (enabled : Bool)
  | setPermissions (actor : AuthorizationPrincipal) (identifier : List UInt8)
      (permissions : PermissionSet)
  | revoke (actor : AuthorizationPrincipal) (identifier : List UInt8)
  | delete (actor : AuthorizationPrincipal) (identifier : List UInt8)
  | quarantine (identifier : List UInt8)

/-- What an operation commits. -/
def MachineOp.edit : MachineOp → MachineSnapshot → Except EspErr MachinePayload
  | .enroll actor request draws verifier => machineEnroll actor request draws verifier
  | .rotate actor identifier verifier => machineRotate actor identifier verifier
  | .setEnabled actor identifier enabled => machineSetEnabled actor identifier enabled
  | .setPermissions actor identifier permissions => machineSetPermissions actor identifier permissions
  | .revoke actor identifier => machineRevoke actor identifier
  | .delete actor identifier => machineDelete actor identifier
  | .quarantine identifier => machineQuarantine identifier

namespace MachineOp

/-- The identifier an operation is called with. -/
def target? : MachineOp → Option (List UInt8)
  | .enroll _ _ _ _ => none
  | .rotate _ identifier _ | .setEnabled _ identifier _ | .setPermissions _ identifier _
  | .revoke _ identifier | .delete _ identifier | .quarantine identifier => some identifier

/-- What an operation makes of its target's record, before the marks. -/
inductive Changes : MachineOp → MachineRecord → MachineRecord → Prop
  | rotate {actor : AuthorizationPrincipal} {identifier : List UInt8} {verifier : PasswordVerifier}
      {r : MachineRecord} :
      Changes (.rotate actor identifier (.ok verifier)) r
        { r with verifier := verifier, credentialVersion := bumped r.credentialVersion }
  | enable {actor : AuthorizationPrincipal} {identifier : List UInt8} {r : MachineRecord} :
      r.revoked = 0 → Changes (.setEnabled actor identifier true) r { r with enabled := 1 }
  | disable {actor : AuthorizationPrincipal} {identifier : List UInt8} {r : MachineRecord} :
      Changes (.setEnabled actor identifier false) r { r with enabled := 0 }
  | setPermissions {actor : AuthorizationPrincipal} {identifier : List UInt8}
      {permissions : PermissionSet} {r : MachineRecord} :
      actorCanManage actor permissionEnrollMachines (cString r.scope) permissions = true →
      r.revoked = 0 →
      Changes (.setPermissions actor identifier permissions) r { r with permissions := permissions }
  | revoke {actor : AuthorizationPrincipal} {identifier : List UInt8} {r : MachineRecord} :
      Changes (.revoke actor identifier) r
        { r with enabled := 0, revoked := 1, credentialVersion := bumped r.credentialVersion }
  | quarantine {identifier : List UInt8} {r : MachineRecord} :
      Changes (.quarantine identifier) r { r with enabled := 0 }

/-- What an edit that succeeds makes of the payload. -/
inductive Effect (s : MachineSnapshot) : MachineOp → MachinePayload → Prop
  | enrolled {actor : AuthorizationPrincipal} {request : MachineEnrollmentRequest}
      {draws : Vector (Vector UInt8 15) 8} {verifier : PasswordVerifier} {identifier : List UInt8}
      (hroom : s.payload.machineCount.toNat < 16) :
      enrollmentAllowed actor request = true → freshIdentifier s.payload draws = some identifier →
      Effect s (.enroll actor request draws (.ok verifier))
        { s.payload with
          machines := s.payload.machines.set s.payload.machineCount.toNat
            (enrolledRecord actor request identifier verifier s) hroom
          machineCount := s.payload.machineCount + 1 }
  | updated {op : MachineOp} {i : Fin 16} {r : MachineRecord} :
      i.val < s.payload.machineCount.toNat → op.target? = some s.payload.machines[i].id →
      Changes op s.payload.machines[i] r → Effect s op (s.payload.store i (r.touched s))
  | deleted {actor : AuthorizationPrincipal} {i : Fin 16} :
      i.val < s.payload.machineCount.toNat → s.payload.machines[i].revoked ≠ 0 →
      Effect s (.delete actor s.payload.machines[i].id)
        { s.payload with
          machines := Packed.eraseSwap .zero s.payload.machines s.payload.machineCount.toNat i
          machineCount := s.payload.machineCount - 1 }

end MachineOp

variable {s : MachineSnapshot} {p : MachinePayload}

theorem mutableTarget_ok {actor : AuthorizationPrincipal} {identifier : List UInt8}
    {required : PermissionSet} {payload : MachinePayload} {i : Fin 16}
    (h : mutableTarget actor identifier required payload = .ok i) :
    i.val < payload.machineCount.toNat ∧ payload.machines[i].id = identifier := by
  unfold mutableTarget at h
  split at h
  · cases h
  · split at h
    · cases h
    · next j hj =>
      split at h
      · cases h
      · cases h
        obtain ⟨hlt, hid⟩ := Packed.find?_eq_some hj
        exact ⟨hlt, of_decide_eq_true hid⟩

theorem machineUpdate_ok {actor : AuthorizationPrincipal} {identifier : List UInt8}
    {required : PermissionSet} {change : MachineRecord → Except EspErr MachineRecord}
    (h : machineUpdate actor identifier required change s = .ok p) :
    ∃ (i : Fin 16) (r : MachineRecord), i.val < s.payload.machineCount.toNat ∧
      s.payload.machines[i].id = identifier ∧ change s.payload.machines[i] = .ok r ∧
      p = s.payload.store i (r.touched s) := by
  unfold machineUpdate at h
  split at h
  · cases h
  · next i hi =>
    split at h
    · cases h
    · next r hr =>
      cases h
      obtain ⟨hlt, hid⟩ := mutableTarget_ok hi
      exact ⟨i, r, hlt, hid, hr, rfl⟩

section Effects

variable {actor : AuthorizationPrincipal} {identifier : List UInt8}

theorem machineEnroll_effect {request : MachineEnrollmentRequest} {draws : Vector (Vector UInt8 15) 8}
    {verifier : Except EspErr PasswordVerifier} (h : machineEnroll actor request draws verifier s = .ok p) :
    MachineOp.Effect s (.enroll actor request draws verifier) p := by
  unfold machineEnroll at h
  split at h
  · cases h
  · next hallowed =>
    split at h
    · cases h
    · next hroom =>
      split at h
      · cases h
      · cases h
      · next identifier verifier hfresh =>
        cases h
        exact .enrolled _ (by simpa using hallowed) hfresh

theorem machineRotate_effect {verifier : Except EspErr PasswordVerifier}
    (h : machineRotate actor identifier verifier s = .ok p) :
    MachineOp.Effect s (.rotate actor identifier verifier) p := by
  unfold machineRotate at h
  obtain ⟨i, r, hlt, rfl, hchange, rfl⟩ := machineUpdate_ok h
  cases verifier with
  | error err => cases hchange
  | ok verifier =>
    cases hchange
    exact .updated hlt rfl .rotate

theorem machineSetEnabled_effect {enabled : Bool} (h : machineSetEnabled actor identifier enabled s = .ok p) :
    MachineOp.Effect s (.setEnabled actor identifier enabled) p := by
  unfold machineSetEnabled at h
  obtain ⟨i, r, hlt, rfl, hchange, rfl⟩ := machineUpdate_ok h
  split at hchange
  · cases hchange
  · next hrevoked =>
    cases hchange
    refine .updated hlt rfl ?_
    cases enabled with
    | true => exact .enable (by simpa using hrevoked)
    | false => exact .disable

theorem machineSetPermissions_effect {permissions : PermissionSet}
    (h : machineSetPermissions actor identifier permissions s = .ok p) :
    MachineOp.Effect s (.setPermissions actor identifier permissions) p := by
  unfold machineSetPermissions at h
  split at h
  · cases h
  · obtain ⟨i, r, hlt, rfl, hchange, rfl⟩ := machineUpdate_ok h
    split at hchange
    · cases hchange
    · next hmanage =>
      split at hchange
      · cases hchange
      · next hrevoked =>
        cases hchange
        exact .updated hlt rfl (.setPermissions (by simpa using hmanage) (not_not.mp hrevoked))

theorem machineRevoke_effect (h : machineRevoke actor identifier s = .ok p) :
    MachineOp.Effect s (.revoke actor identifier) p := by
  unfold machineRevoke at h
  obtain ⟨i, r, hlt, rfl, hchange, rfl⟩ := machineUpdate_ok h
  cases hchange
  exact .updated hlt rfl .revoke

theorem machineDelete_effect (h : machineDelete actor identifier s = .ok p) :
    MachineOp.Effect s (.delete actor identifier) p := by
  unfold machineDelete at h
  split at h
  · cases h
  · next i hi =>
    split at h
    · cases h
    · next hrevoked =>
      cases h
      obtain ⟨hlt, rfl⟩ := mutableTarget_ok hi
      exact .deleted hlt hrevoked

theorem machineQuarantine_effect (h : machineQuarantine identifier s = .ok p) :
    MachineOp.Effect s (.quarantine identifier) p := by
  unfold machineQuarantine at h
  split at h
  · cases h
  · next i hi =>
    cases h
    obtain ⟨hlt, hid⟩ := Packed.find?_eq_some hi
    obtain rfl := of_decide_eq_true hid
    exact .updated hlt rfl .quarantine

/-- **What an edit that succeeds does.** -/
theorem MachineOp.effect {op : MachineOp} (h : op.edit s = .ok p) : op.Effect s p := by
  cases op with
  | enroll => exact machineEnroll_effect h
  | rotate => exact machineRotate_effect h
  | setEnabled => exact machineSetEnabled_effect h
  | setPermissions => exact machineSetPermissions_effect h
  | revoke => exact machineRevoke_effect h
  | delete => exact machineDelete_effect h
  | quarantine => exact machineQuarantine_effect h

end Effects

/-! ## The directory as a map -/

theorem enrolledRecord_id {payload : MachinePayload} {draws : Vector (Vector UInt8 15) 8}
    {identifier : List UInt8} (h : freshIdentifier payload draws = some identifier)
    (actor : AuthorizationPrincipal) (request : MachineEnrollmentRequest)
    (verifier : PasswordVerifier) (s : MachineSnapshot) :
    (enrolledRecord actor request identifier verifier s).id = identifier := by
  obtain ⟨random, -, rfl⟩ := List.mem_map.mp (List.mem_of_find?_eq_some h)
  exact cString_strlcpy (by rw [randomIdentifier_length]; decide) (zero_not_mem_randomIdentifier random)

theorem freshIdentifier_find {payload : MachinePayload} {draws : Vector (Vector UInt8 15) 8}
    {identifier : List UInt8} (h : freshIdentifier payload draws = some identifier) :
    payload.find identifier = none := by
  refine Packed.get?_eq_none.mpr fun r hr => ?_
  have hall := List.find?_some h
  rw [List.all_eq_true] at hall
  simpa using hall r hr

theorem MachineOp.Changes.id_eq {op : MachineOp} {old new : MachineRecord}
    (h : op.Changes old new) : new.id = old.id := by
  cases h <;> rfl

/-- What an operation does to the map: `old` under the identifier `k` becomes `new`. -/
inductive MachineOp.Rewrites (s : MachineSnapshot) :
    MachineOp → List UInt8 → Option MachineRecord → Option MachineRecord → Prop
  | enrolled {actor : AuthorizationPrincipal} {request : MachineEnrollmentRequest}
      {draws : Vector (Vector UInt8 15) 8} {verifier : PasswordVerifier} {identifier : List UInt8} :
      enrollmentAllowed actor request = true → freshIdentifier s.payload draws = some identifier →
      Rewrites s (.enroll actor request draws (.ok verifier)) identifier none
        (some (enrolledRecord actor request identifier verifier s))
  | updated {op : MachineOp} {old new : MachineRecord} :
      op.target? = some old.id → Changes op old new →
      Rewrites s op old.id (some old) (some (new.touched s))
  | deleted {actor : AuthorizationPrincipal} {old : MachineRecord} :
      old.revoked ≠ 0 → Rewrites s (.delete actor old.id) old.id (some old) none

/-- **An operation rewrites one record** and leaves all others. -/
theorem MachineOp.Effect.rewrites {op : MachineOp} (h : op.Effect s p) (hs : s.payload.Valid)
    (hp : p.Valid) :
    ∃ k old new, op.Rewrites s k old new ∧ s.payload.find k = old ∧
      ∀ id, p.find id = if id = k then new else s.payload.find id := by
  cases h with
  | @enrolled actor request draws verifier identifier hroom hallowed hfresh =>
    have hid := enrolledRecord_id hfresh actor request verifier s
    have hcount := succ_toNat hroom
    refine ⟨identifier, none, _, .enrolled hallowed hfresh, freshIdentifier_find hfresh, fun id => ?_⟩
    have hkeyed := hp.keyed
    unfold MachinePayload.find
    dsimp only at hkeyed ⊢
    rw [hcount] at hkeyed ⊢
    rw [Packed.get?_push hs.keyed hroom hkeyed, hid]
  | @updated op i r hlt htarget hchanges =>
    have hid : (r.touched s).id = s.payload.machines[i].id := hchanges.id_eq
    refine ⟨_, _, _, .updated htarget hchanges, ?_, fun id => ?_⟩
    · exact Packed.get?_of_mem hs.keyed (Packed.mem_entries.mpr ⟨i, hlt, rfl⟩)
    · exact (Packed.get?_set hs.keyed hlt hid hp.keyed id).trans (by rw [hid]; rfl)
  | @deleted actor i hlt hrevoked =>
    have hcount := @pred_toNat s.payload.machineCount (by omega)
    refine ⟨_, _, none, .deleted hrevoked, ?_, fun id => ?_⟩
    · exact Packed.get?_of_mem hs.keyed (Packed.mem_entries.mpr ⟨i, hlt, rfl⟩)
    · have hkeyed := hp.keyed
      unfold MachinePayload.find
      dsimp only at hkeyed ⊢
      rw [hcount] at hkeyed ⊢
      rw [Packed.get?_eraseSwap hs.keyed hlt hs.count hkeyed]

/-! ## Runs -/

/-- A call of an operation and what it returns. -/
structure MachineCall where
  op : MachineOp
  err : EspErr

/-- The edit is refused, the commit is refused or fails, or the commit goes through. -/
inductive MachineStep : MachineSnapshot → MachineCall → MachineSnapshot → Prop
  | refused {s : MachineSnapshot} {op : MachineOp} {err : EspErr} : op.edit s = .error err →
      err ≠ espOk → MachineStep s ⟨op, err⟩ s
  | failed {s : MachineSnapshot} {op : MachineOp} {p : MachinePayload} {err : EspErr} :
      op.edit s = .ok p → err ≠ espOk → MachineStep s ⟨op, err⟩ s
  | committed {s : MachineSnapshot} {op : MachineOp} {p : MachinePayload} : op.edit s = .ok p →
      p.valid = true → MachineStep s ⟨op, espOk⟩ ⟨p, nextGeneration s.generation⟩

abbrev MachineMove := Interact.Move MachineSnapshot MachineCall

/-- A step that commits rewrites one record; any other changes nothing. -/
theorem MachineStep.cases {s t : MachineSnapshot} {call : MachineCall} (h : MachineStep s call t)
    (hs : s.payload.Valid) :
    call.err ≠ espOk ∧ t = s ∨
      call.err = espOk ∧ t.generation = nextGeneration s.generation ∧ t.payload.Valid ∧
        call.op.Effect s t.payload ∧ ∃ k old new, call.op.Rewrites s k old new ∧
          s.payload.find k = old ∧
          ∀ id, t.payload.find id = if id = k then new else s.payload.find id := by
  cases h with
  | refused _ herr => exact .inl ⟨herr, rfl⟩
  | failed _ herr => exact .inl ⟨herr, rfl⟩
  | committed hedit hvalid =>
    have hp := MachinePayload.valid_iff.mp hvalid
    exact .inr ⟨rfl, rfl, hp, MachineOp.effect hedit, (MachineOp.effect hedit).rewrites hs hp⟩

theorem MachineStep.valid {s t : MachineSnapshot} {call : MachineCall} (h : MachineStep s call t)
    (hs : s.payload.Valid) : t.payload.Valid := by
  rcases h.cases hs with ⟨-, rfl⟩ | ⟨-, -, hp, -⟩
  · exact hs
  · exact hp

/-! ## Authentication -/

/-- `argus_machine_principal_t`. -/
structure MachineServicePrincipal where
  identifier : Vector UInt8 37
  scope : Vector UInt8 37
  topicScope : Vector UInt8 97
  apiScope : Vector UInt8 65
  permissions : PermissionSet
  allowedTransports : UInt8
  allowedInterfaces : UInt8
  clientType : UInt8
  credentialVersion : UInt32
  principalRevision : UInt32
  recordSecurityEpoch : UInt32
  directoryGeneration : UInt32
deriving DecidableEq

/-- `principal_from_record`. -/
def MachineRecord.principal (r : MachineRecord) (directoryGeneration : UInt32) :
    MachineServicePrincipal where
  identifier := strlcpy 37 (cString r.identifier)
  scope := strlcpy 37 (cString r.scope)
  topicScope := strlcpy 97 (cString r.topicScope)
  apiScope := strlcpy 65 (cString r.apiScope)
  permissions := r.permissions
  allowedTransports := r.allowedTransports
  allowedInterfaces := r.allowedInterfaces
  clientType := r.clientType
  credentialVersion := r.credentialVersion
  principalRevision := r.principalRevision
  recordSecurityEpoch := r.recordSecurityEpoch
  directoryGeneration := directoryGeneration

/-- `argus_machine_auth_result_t`. -/
inductive MachineAuthResult
  | success
  | invalidCredentials
  | throttled
  | busy
  | directoryUnavailable
  | transportRejected
  | interfaceRejected
  | clientIdRejected
  | invalidRequest
deriving DecidableEq

/-- `argus_machine_service_authenticate`: `refusal` is what the throttle and the admission
answer, `verify` what the password check does.  The directory is read once, at `s`. -/
def machineAuthenticate (s : MachineSnapshot) (clientId username password : List UInt8)
    (receivingInterface : UInt8) (refusal : Option MachineAuthResult) (verify : Except EspErr Bool) :
    Except MachineAuthResult MachineServicePrincipal :=
  if username.length = 0 ∨ username.length > 36 ∨ password.length ≠ 43 ∨
      (receivingInterface ≠ machineInterfaceSoftap ∧ receivingInterface ≠ machineInterfaceSta) then
    .error .invalidRequest
  else if 0 ∈ username ∨ 0 ∈ password ∨ clientId ≠ username then .error .clientIdRejected
  else
    match refusal with
    | some result => .error result
    | none =>
      match verify, s.payload.find username with
      | .error err, _ => .error (if err = espErrTimeout then .busy else .directoryUnavailable)
      | .ok _, none => .error .invalidCredentials
      | .ok isMatch, some r =>
        if ¬ isMatch ∨ r.enabled = 0 ∨ r.revoked ≠ 0 then .error .invalidCredentials
        else if r.allowedTransports &&& machineTransportMqtt = 0 then .error .transportRejected
        else if r.allowedInterfaces &&& receivingInterface = 0 then .error .interfaceRejected
        else .ok (r.principal s.generation)

/-- `argus_machine_service_revalidate`. -/
def serviceRevalidate (s : MachineSnapshot) (principal : MachineServicePrincipal)
    (receivingInterface : UInt8) : EspErr :=
  if strlen principal.identifier = 0 then espErrInvalidArg
  else
    match s.payload.find (cString principal.identifier) with
    | none => espErrInvalidState
    | some current =>
      if current.enabled ≠ 0 ∧ current.revoked = 0 ∧
          current.credentialVersion = principal.credentialVersion ∧
          current.principalRevision = principal.principalRevision ∧
          current.recordSecurityEpoch = principal.recordSecurityEpoch ∧
          current.allowedTransports &&& machineTransportMqtt ≠ 0 ∧
          current.allowedInterfaces &&& receivingInterface ≠ 0 ∧
          current.permissions = principal.permissions ∧
          cString current.scope = cString principal.scope ∧
          cString current.topicScope = cString principal.topicScope then espOk
      else espErrInvalidState

/-- A machine that authenticates has an enabled record that is not revoked. -/
theorem machineAuthenticate_ok {s : MachineSnapshot} {clientId username password : List UInt8}
    {receivingInterface : UInt8} {refusal : Option MachineAuthResult} {verify : Except EspErr Bool}
    {principal : MachineServicePrincipal}
    (h : machineAuthenticate s clientId username password receivingInterface refusal verify =
      .ok principal) :
    username ≠ [] ∧ ∃ r, s.payload.find username = some r ∧ r.enabled ≠ 0 ∧ r.revoked = 0 ∧
      r.allowedTransports &&& machineTransportMqtt ≠ 0 ∧
      r.allowedInterfaces &&& receivingInterface ≠ 0 ∧ principal = r.principal s.generation := by
  unfold machineAuthenticate at h
  split at h
  · cases h
  · next hlen =>
    split at h
    · cases h
    · split at h
      · cases h
      · split at h
        · cases h
        · cases h
        · next isMatch r hfind =>
          split at h
          · cases h
          · next hgood =>
            split at h
            · cases h
            · next htransport =>
              split at h
              · cases h
              · next hinterface =>
                have hprincipal := Except.ok.inj h
                simp only [not_or, not_not] at hgood hlen
                refine ⟨?_, r, hfind, hgood.2.1, hgood.2.2, htransport, hinterface, hprincipal.symm⟩
                rintro rfl
                exact hlen.1 rfl

end Argus
