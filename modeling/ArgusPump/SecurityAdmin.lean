import ArgusPump.HumanRoles
import ArgusPump.Lib.Run

/-!
# Administration of humans

`main/argus_security_admin.c`: the operations on humans and custom roles, each an edit of a
snapshot that is then committed with the snapshot's generation.

    an edit that succeeds → what it checked, and what it makes of the humans and the roles
                                                                      (HumanOp.effect)

What the password verifier's creation gives is an input.  Left out: NULL arguments, failing
allocations, and the sessions an operation revokes once it is committed.
-/

namespace Argus

open Interact

abbrev HumanSnapshot := DirectorySnapshot SecurityDirectoryPayload

/-! ## Checks -/

/-- `argus_auth_canonicalize_login`. -/
def canonicalizeLogin (input : List UInt8) : Option (List UInt8) :=
  if input.length = 0 ∨ input.length > 32 ∨ input.head? = some 0x20 ∨ input.getLast? = some 0x20 then none
  else if input.all fun c => 0x21 ≤ c && c ≤ 0x7E then
    some (input.map fun c => if 0x41 ≤ c ∧ c ≤ 0x5A then c + 0x20 else c)
  else none

/-- `argus_auth_new_password_valid`. -/
def newPasswordValid (password : List UInt8) : Bool :=
  12 ≤ password.length && password.length ≤ 128 && password.all isprint

/-- `unique_human`. -/
def uniqueHuman (payload : SecurityDirectoryPayload) (identifier login : List UInt8) : Bool :=
  payload.humanEntries.all fun human => human.id ≠ identifier && cString human.login ≠ login

/-- `requested_permissions`. -/
def requestedPermissions (level : SecurityLevel) (direct : PermissionSet) : PermissionSet :=
  levelPermissions level ||| direct

/-- `is_enabled_human_admin`. -/
def isEnabledHumanAdmin (payload : SecurityDirectoryPayload) (human : HumanRecord) : Bool :=
  human.enabled ≠ 0 && human.revoked = 0 && humanPermissions payload human &&& permissionManageUsers ≠ 0

/-- A slot of the table of humans. -/
theorem slot_lt (i : Fin 16) : i.val < 16 := i.isLt

/-- `argus_security_admin_removal_would_lock_out`. -/
def removalWouldLockOut (payload : SecurityDirectoryPayload) (target : Fin 16) : Bool :=
  if target.val ≥ payload.humanCount.toNat ∨
      ¬ isEnabledHumanAdmin payload (getElem payload.humans target (slot_lt target)) then
    false
  else payload.humanEntries.countP (isEnabledHumanAdmin payload) = 1

/-- `target_authorized`. -/
def targetAuthorized (actor : AuthorizationPrincipal) (level : SecurityLevel) (scope : List UInt8)
    (protectedIdentity : Bool) (requested : PermissionSet) : EspErr :=
  if authorizationManageTarget actor level scope protectedIdentity ≠ .allow then espErrNotAllowed
  else if requested &&& ~~~permissionManageClientAdmins ≠ 0 ∧
      authorizationDelegate actor level scope (requested &&& ~~~permissionManageClientAdmins) ≠ .allow then
    espErrNotAllowed
  else if requested &&& permissionManageClientAdmins ≠ 0 ∧
      (actor.level ≠ .argusPersonnel ∨ level ≠ .clientAdmin) then espErrNotAllowed
  else espOk

/-- The check of `snapshot_target` for one human. -/
def humanAuthorized (actor : AuthorizationPrincipal) (payload : SecurityDirectoryPayload)
    (human : HumanRecord) : EspErr :=
  targetAuthorized actor (.ofCode human.level) (cString human.scope) (human.protectedIdentity ≠ 0)
    (humanPermissions payload human)

/-- `snapshot_target`. -/
def humanTarget (actor : AuthorizationPrincipal) (identifier : List UInt8)
    (payload : SecurityDirectoryPayload) : Except EspErr (Fin 16) :=
  if ¬ principalValid actor then .error espErrInvalidArg
  else
    match Packed.find? payload.humans payload.humanCount.toNat fun human => human.id = identifier with
    | none => .error espErrNotFound
    | some i =>
      if humanAuthorized actor payload (getElem payload.humans i (slot_lt i)) ≠ espOk then
        .error (humanAuthorized actor payload (getElem payload.humans i (slot_lt i)))
      else .ok i

/-! ## The operations -/

namespace SecurityDirectoryPayload

def find (payload : SecurityDirectoryPayload) (identifier : List UInt8) : Option HumanRecord :=
  Packed.get? HumanRecord.id payload.humans payload.humanCount.toNat identifier

def store (payload : SecurityDirectoryPayload) (i : Fin 16) (human : HumanRecord) :
    SecurityDirectoryPayload :=
  { payload with humans := payload.humans.set i human (slot_lt i) }

end SecurityDirectoryPayload

/-- The operations that change the record of a target in place. -/
def humanUpdate (actor : AuthorizationPrincipal) (identifier : List UInt8)
    (change : Fin 16 → HumanRecord → Except EspErr HumanRecord) (s : HumanSnapshot) :
    Except EspErr SecurityDirectoryPayload :=
  match humanTarget actor identifier s.payload with
  | .error err => .error err
  | .ok i =>
    match change i (getElem s.payload.humans i (slot_lt i)) with
    | .error err => .error err
    | .ok human => .ok (s.payload.store i human)

/-- The marks of an edit that ends a human's sessions. -/
def HumanRecord.touched (human : HumanRecord) : HumanRecord :=
  { human with recordSecurityEpoch := bumped human.recordSecurityEpoch }

def HumanRecord.withPassword (human : HumanRecord) (verifier : PasswordVerifier) : HumanRecord :=
  { human with verifier := verifier, credentialVersion := bumped human.credentialVersion }.touched

theorem humanCount_lt {count : UInt8} (h : ¬ count ≥ securityMaxHumans) : count.toNat < 16 := by
  rw [ge_iff_le, UInt8.not_le] at h
  exact UInt8.lt_iff_toNat_lt.mp h

/-- The record of a new human. -/
def createdHuman (identifier login displayName scope : List UInt8) (level : SecurityLevel)
    (direct : PermissionSet) (verifier : PasswordVerifier) (s : HumanSnapshot) : HumanRecord where
  recordVersion := securityRecordVersion
  level := level.code
  enabled := 1
  protectedIdentity := 0
  identifier := strlcpy 37 identifier
  login := strlcpy 33 login
  displayName := strlcpy 49 displayName
  scope := strlcpy 37 scope
  roleMask := 1 <<< level.code.toUInt16
  directPermissions := direct
  credentialVersion := 1
  recordSecurityEpoch := s.generation + 1
  revoked := 0
  reserved := .replicate 3 0
  verifier := verifier

/-- `argus_security_admin_create_human`, up to the commit. -/
def adminCreateHuman (actor : AuthorizationPrincipal) (identifier login displayName scope : List UInt8)
    (level : SecurityLevel) (direct : PermissionSet) (password : List UInt8)
    (verifier : Except EspErr PasswordVerifier) (s : HumanSnapshot) :
    Except EspErr SecurityDirectoryPayload :=
  if ¬ principalValid actor ∨ level.code > SecurityLevel.viewer.code ∨ ¬ newPasswordValid password then
    .error espErrInvalidArg
  else
    match canonicalizeLogin login with
    | none => .error espErrInvalidArg
    | some normalized =>
      if targetAuthorized actor level scope false (requestedPermissions level direct) ≠ espOk then
        .error (targetAuthorized actor level scope false (requestedPermissions level direct))
      else if h : s.payload.humanCount ≥ securityMaxHumans then .error espErrInvalidState
      else if ¬ uniqueHuman s.payload identifier normalized then .error espErrInvalidState
      else
        match verifier with
        | .error err => .error err
        | .ok verifier =>
          .ok { s.payload with
            humans := s.payload.humans.set s.payload.humanCount.toNat
              (createdHuman identifier normalized displayName scope level direct verifier s)
              (humanCount_lt h)
            humanCount := s.payload.humanCount + 1 }

/-- `argus_security_admin_set_enabled`, up to the commit. -/
def adminSetEnabled (actor : AuthorizationPrincipal) (identifier : List UInt8) (enabled : Bool)
    (s : HumanSnapshot) : Except EspErr SecurityDirectoryPayload :=
  humanUpdate actor identifier (fun i human =>
    if ¬ enabled ∧ removalWouldLockOut s.payload i then .error espErrInvalidState
    else
      .ok { human with
        enabled := if enabled then 1 else 0
        revoked := if enabled then 0 else 1 }.touched) s

/-- `argus_security_admin_replace_password`, up to the commit. -/
def adminReplacePassword (actor : AuthorizationPrincipal) (identifier password : List UInt8)
    (verifier : Except EspErr PasswordVerifier) (s : HumanSnapshot) :
    Except EspErr SecurityDirectoryPayload :=
  if ¬ newPasswordValid password then .error espErrInvalidArg
  else
    humanUpdate actor identifier (fun _ human =>
      match verifier with
      | .error err => .error err
      | .ok verifier => .ok (human.withPassword verifier)) s

/-- `argus_security_admin_replace_own_password`, up to the commit. -/
def adminReplaceOwnPassword (actor : AuthorizationPrincipal) (password : List UInt8)
    (verifier : Except EspErr PasswordVerifier) (s : HumanSnapshot) :
    Except EspErr SecurityDirectoryPayload :=
  if ¬ principalValid actor ∨ actor.type ≠ .human ∨ ¬ newPasswordValid password then
    .error espErrInvalidArg
  else
    match Packed.find? s.payload.humans s.payload.humanCount.toNat fun human =>
        human.id = cString actor.identifier with
    | none => .error espErrNotFound
    | some i =>
      match verifier with
      | .error err => .error err
      | .ok verifier => 
        .ok (s.payload.store i ((getElem s.payload.humans i (slot_lt i)).withPassword verifier))

/-- `argus_security_admin_update_display_name`, up to the commit. -/
def adminUpdateDisplayName (actor : AuthorizationPrincipal) (identifier displayName : List UInt8)
    (s : HumanSnapshot) : Except EspErr SecurityDirectoryPayload :=
  if displayName.length = 0 ∨ displayName.length > 48 then .error espErrInvalidArg
  else
    humanUpdate actor identifier (fun _ human =>
      .ok { human with displayName := strlcpy 49 displayName }) s

/-- `valid_mask` of `argus_security_admin_assign_custom_roles`. -/
def customRoleMask (payload : SecurityDirectoryPayload) : UInt16 :=
  if payload.customRoleCount = 0 then 0 else 1 <<< payload.customRoleCount.toUInt16 - 1

/-- The permissions of the custom roles of a mask. -/
def customRolePermissions (payload : SecurityDirectoryPayload) (mask : UInt16) : PermissionSet :=
  (payload.roleEntries.zipIdx.filter fun role => hasRole mask role.2).foldl
    (fun permissions role => permissions ||| role.1.permissions) 0

/-- `argus_security_admin_assign_custom_roles`, up to the commit. -/
def adminAssignCustomRoles (actor : AuthorizationPrincipal) (identifier : List UInt8) (mask : UInt16)
    (s : HumanSnapshot) : Except EspErr SecurityDirectoryPayload :=
  humanUpdate actor identifier (fun _ human =>
    if mask &&& ~~~customRoleMask s.payload ≠ 0 then .error espErrInvalidArg
    else if customRolePermissions s.payload mask ≠ 0 ∧
        authorizationDelegate actor (.ofCode human.level) (cString human.scope)
          (customRolePermissions s.payload mask) ≠ .allow then .error espErrNotAllowed
    else
      .ok { human with
        roleMask := 1 <<< human.level.toUInt16 ||| mask <<< securityBuiltinRoleCount.toUInt16 }.touched) s

/-- `argus_security_admin_delete_human`, up to the commit. -/
def adminDeleteHuman (actor : AuthorizationPrincipal) (identifier : List UInt8) (s : HumanSnapshot) :
    Except EspErr SecurityDirectoryPayload :=
  match humanTarget actor identifier s.payload with
  | .error err => .error err
  | .ok i =>
    if removalWouldLockOut s.payload i then .error espErrInvalidState
    else
      .ok { s.payload with
        humans := Packed.eraseShift .zero s.payload.humans s.payload.humanCount.toNat i
        humanCount := s.payload.humanCount - 1 }

theorem roleCount_lt {count : UInt8} (h : ¬ count ≥ securityCustomRoleCapacity) : count.toNat < 10 := by
  rw [ge_iff_le, UInt8.not_le] at h
  exact UInt8.lt_iff_toNat_lt.mp h

/-- The record of a new role. -/
def createdRole (identifier : List UInt8) (level : SecurityLevel)
    (permissions delegable : PermissionSet) : RoleRecord where
  recordVersion := securityRecordVersion
  level := level.code
  builtin := 0
  protectedRole := 0
  identifier := strlcpy 37 identifier
  permissions := permissions
  delegablePermissions := delegable

/-- What `argus_security_admin_create_role` asks of its actor. -/
def createRoleAllowed (actor : AuthorizationPrincipal) (level : SecurityLevel)
    (permissions delegable : PermissionSet) : Bool :=
  principalValid actor && authorizationRequire actor permissionManageRoles = .allow &&
    SecurityLevel.clientAdmin.code ≤ level.code && level.code ≤ SecurityLevel.viewer.code &&
    delegable &&& ~~~permissions = 0 &&
    authorizationDelegate actor level (cString actor.scope) permissions = .allow &&
    delegable &&& ~~~actor.delegablePermissions = 0

/-- `argus_security_admin_create_role`, up to the commit. -/
def adminCreateRole (actor : AuthorizationPrincipal) (identifier : List UInt8) (level : SecurityLevel)
    (permissions delegable : PermissionSet) (s : HumanSnapshot) :
    Except EspErr SecurityDirectoryPayload :=
  if ¬ createRoleAllowed actor level permissions delegable then .error espErrNotAllowed
  else if h : s.payload.customRoleCount ≥ securityCustomRoleCapacity then .error espErrNoMem
  else if s.payload.roleEntries.any fun role => role.id = identifier then .error espErrInvalidState
  else
    .ok { s.payload with
      customRoles := s.payload.customRoles.set s.payload.customRoleCount.toNat
        (createdRole identifier level permissions delegable) (roleCount_lt h)
      customRoleCount := s.payload.customRoleCount + 1 }

/-- A human after custom role `index` is gone. -/
def HumanRecord.renumbered (index : Nat) (human : HumanRecord) : HumanRecord :=
  { human with roleMask := renumberedMask index human.roleMask }

/-- `argus_security_admin_delete_role`, up to the commit. -/
def adminDeleteRole (actor : AuthorizationPrincipal) (identifier : List UInt8) (s : HumanSnapshot) :
    Except EspErr SecurityDirectoryPayload :=
  if ¬ principalValid actor ∨ authorizationRequire actor permissionManageRoles ≠ .allow then
    .error espErrNotAllowed
  else
    match Packed.find? s.payload.customRoles s.payload.customRoleCount.toNat fun role =>
        role.id = identifier with
    | none => .error espErrNotFound
    | some i =>
      if s.payload.humanEntries.any fun human =>
          hasRole human.roleMask (i.val + securityBuiltinRoleCount.toNat) then .error espErrInvalidState
      else
        .ok { s.payload with
          customRoles := Packed.eraseShift .zero s.payload.customRoles s.payload.customRoleCount.toNat i
          customRoleCount := s.payload.customRoleCount - 1
          humans := Packed.mapEntries (HumanRecord.renumbered i.val) s.payload.humans
            s.payload.humanCount.toNat }

inductive HumanOp
  | createHuman (actor : AuthorizationPrincipal) (identifier login displayName scope : List UInt8)
      (level : SecurityLevel) (direct : PermissionSet) (password : List UInt8)
      (verifier : Except EspErr PasswordVerifier)
  | setEnabled (actor : AuthorizationPrincipal) (identifier : List UInt8) (enabled : Bool)
  | replacePassword (actor : AuthorizationPrincipal) (identifier password : List UInt8)
      (verifier : Except EspErr PasswordVerifier)
  | replaceOwnPassword (actor : AuthorizationPrincipal) (password : List UInt8)
      (verifier : Except EspErr PasswordVerifier)
  | updateDisplayName (actor : AuthorizationPrincipal) (identifier displayName : List UInt8)
  | assignCustomRoles (actor : AuthorizationPrincipal) (identifier : List UInt8) (mask : UInt16)
  | deleteHuman (actor : AuthorizationPrincipal) (identifier : List UInt8)
  | createRole (actor : AuthorizationPrincipal) (identifier : List UInt8) (level : SecurityLevel)
      (permissions delegable : PermissionSet)
  | deleteRole (actor : AuthorizationPrincipal) (identifier : List UInt8)

namespace HumanOp

/-- What an operation commits. -/
def edit : HumanOp → HumanSnapshot → Except EspErr SecurityDirectoryPayload
  | .createHuman actor identifier login displayName scope level direct password verifier =>
    adminCreateHuman actor identifier login displayName scope level direct password verifier
  | .setEnabled actor identifier enabled => adminSetEnabled actor identifier enabled
  | .replacePassword actor identifier password verifier =>
    adminReplacePassword actor identifier password verifier
  | .replaceOwnPassword actor password verifier => adminReplaceOwnPassword actor password verifier
  | .updateDisplayName actor identifier displayName =>
    adminUpdateDisplayName actor identifier displayName
  | .assignCustomRoles actor identifier mask => adminAssignCustomRoles actor identifier mask
  | .deleteHuman actor identifier => adminDeleteHuman actor identifier
  | .createRole actor identifier level permissions delegable =>
    adminCreateRole actor identifier level permissions delegable
  | .deleteRole actor identifier => adminDeleteRole actor identifier

def actor : HumanOp → AuthorizationPrincipal
  | .createHuman actor _ _ _ _ _ _ _ _ | .setEnabled actor _ _ | .replacePassword actor _ _ _
  | .replaceOwnPassword actor _ _ | .updateDisplayName actor _ _ | .assignCustomRoles actor _ _
  | .deleteHuman actor _ | .createRole actor _ _ _ _ | .deleteRole actor _ => actor

/-- The identifier of the record an operation is about. -/
def target? : HumanOp → Option (List UInt8)
  | .createHuman _ identifier _ _ _ _ _ _ _ => some (cString (strlcpy 37 identifier))
  | .setEnabled _ identifier _ | .replacePassword _ identifier _ _ | .updateDisplayName _ identifier _
  | .assignCustomRoles _ identifier _ | .deleteHuman _ identifier => some identifier
  | .replaceOwnPassword actor _ _ => some (cString actor.identifier)
  | .createRole _ _ _ _ _ | .deleteRole _ _ => none

/-- The removal of a human would lock all administrators out. -/
def LocksOut (payload : SecurityDirectoryPayload) (human : HumanRecord) : Prop :=
  isEnabledHumanAdmin payload human = true ∧
    payload.humanEntries.countP (isEnabledHumanAdmin payload) = 1

/-- What an operation checks of its target's record, and what it makes of it. -/
inductive Changes (payload : SecurityDirectoryPayload) : HumanOp → HumanRecord → HumanRecord → Prop
  | enabled {actor : AuthorizationPrincipal} {r : HumanRecord} :
      humanAuthorized actor payload r = espOk →
      Changes payload (.setEnabled actor r.id true) r { r with enabled := 1, revoked := 0 }.touched
  | disabled {actor : AuthorizationPrincipal} {r : HumanRecord} :
      humanAuthorized actor payload r = espOk → ¬ LocksOut payload r →
      Changes payload (.setEnabled actor r.id false) r { r with enabled := 0, revoked := 1 }.touched
  | password {actor : AuthorizationPrincipal} {r : HumanRecord} {password : List UInt8}
      {verifier : PasswordVerifier} : humanAuthorized actor payload r = espOk →
      Changes payload (.replacePassword actor r.id password (.ok verifier)) r (r.withPassword verifier)
  | ownPassword {actor : AuthorizationPrincipal} {r : HumanRecord} {password : List UInt8}
      {verifier : PasswordVerifier} : r.id = cString actor.identifier →
      Changes payload (.replaceOwnPassword actor password (.ok verifier)) r (r.withPassword verifier)
  | displayName {actor : AuthorizationPrincipal} {r : HumanRecord} {displayName : List UInt8} :
      humanAuthorized actor payload r = espOk →
      Changes payload (.updateDisplayName actor r.id displayName) r
        { r with displayName := strlcpy 49 displayName }
  | roles {actor : AuthorizationPrincipal} {r : HumanRecord} {mask : UInt16} :
      humanAuthorized actor payload r = espOk → mask &&& ~~~customRoleMask payload = 0 →
      (customRolePermissions payload mask ≠ 0 → authorizationDelegate actor (.ofCode r.level)
        (cString r.scope) (customRolePermissions payload mask) = .allow) →
      Changes payload (.assignCustomRoles actor r.id mask) r
        { r with
          roleMask := 1 <<< r.level.toUInt16 ||| mask <<< securityBuiltinRoleCount.toUInt16 }.touched

/-- The record under `k` becomes `new`; the other humans and the roles stay. -/
structure Puts (s p : SecurityDirectoryPayload) (k : List UInt8) (old new : Option HumanRecord) :
    Prop where
  roles : p.roleEntries = s.roleEntries
  old : s.find k = old
  find : ∀ id, p.find id = if id = k then new else s.find id

/-- What an operation on a human has checked, and what it makes of the record under `k`. -/
inductive Rewrites (s : HumanSnapshot) :
    HumanOp → List UInt8 → Option HumanRecord → Option HumanRecord → Prop
  | created {actor : AuthorizationPrincipal}
      {identifier login normalized displayName scope password : List UInt8} {level : SecurityLevel}
      {direct : PermissionSet} {verifier : PasswordVerifier} {new : HumanRecord} :
      new = createdHuman identifier normalized displayName scope level direct verifier s →
      level.code ≤ SecurityLevel.viewer.code →
      targetAuthorized actor level scope false (requestedPermissions level direct) = espOk →
      Rewrites s (.createHuman actor identifier login displayName scope level direct password
        (.ok verifier)) new.id none (some new)
  | changed {op : HumanOp} {old new : HumanRecord} : Changes s.payload op old new →
      Rewrites s op old.id (some old) (some new)
  | deleted {actor : AuthorizationPrincipal} {old : HumanRecord} :
      humanAuthorized actor s.payload old = espOk → ¬ LocksOut s.payload old →
      Rewrites s (.deleteHuman actor old.id) old.id (some old) none

/-- What an operation that succeeds makes of the humans and the roles. -/
inductive Effect (s : HumanSnapshot) (p : SecurityDirectoryPayload) : HumanOp → Prop
  | human {op : HumanOp} {k : List UInt8} {old new : Option HumanRecord} :
      op.Rewrites s k old new → Puts s.payload p k old new → Effect s p op
  | roleCreated {actor : AuthorizationPrincipal} {identifier : List UInt8} {level : SecurityLevel}
      {permissions delegable : PermissionSet} :
      createRoleAllowed actor level permissions delegable = true →
      p.roleEntries = s.payload.roleEntries ++ [createdRole identifier level permissions delegable] →
      p.humans = s.payload.humans → p.humanCount = s.payload.humanCount →
      Effect s p (.createRole actor identifier level permissions delegable)
  | roleDeleted {actor : AuthorizationPrincipal} {identifier : List UInt8} {index : Nat} :
      index < 10 → (∀ human ∈ s.payload.humanEntries, index + 6 ∉ maskRoles human.roleMask) →
      p.roleEntries = s.payload.roleEntries.eraseIdx index →
      (∀ id, p.find id = (s.payload.find id).map (HumanRecord.renumbered index)) →
      Effect s p (.deleteRole actor identifier)

end HumanOp

section Inversion

variable {s : HumanSnapshot} {p : SecurityDirectoryPayload}

theorem removalWouldLockOut_iff {payload : SecurityDirectoryPayload} {i : Fin 16}
    (h : i.val < payload.humanCount.toNat) :
    removalWouldLockOut payload i = true ↔ HumanOp.LocksOut payload payload.humans[i] := by
  unfold removalWouldLockOut HumanOp.LocksOut
  by_cases hadmin : isEnabledHumanAdmin payload payload.humans[i] = true
  · rw [if_neg (not_or.mpr ⟨Nat.not_le.mpr h, not_not.mpr hadmin⟩), decide_eq_true_eq]
    exact ⟨fun hone => ⟨hadmin, hone⟩, fun hlocks => hlocks.2⟩
  · rw [if_pos (.inr hadmin)]
    exact ⟨nofun, fun hlocks => absurd hlocks.1 hadmin⟩

theorem humanTarget_ok {actor : AuthorizationPrincipal} {identifier : List UInt8}
    {payload : SecurityDirectoryPayload} {i : Fin 16}
    (h : humanTarget actor identifier payload = .ok i) :
    i.val < payload.humanCount.toNat ∧ (getElem payload.humans i (slot_lt i)).id = identifier ∧
      humanAuthorized actor payload (getElem payload.humans i (slot_lt i)) = espOk := by
  unfold humanTarget at h
  split at h
  · cases h
  · split at h
    · cases h
    · next j hj =>
      split at h
      · cases h
      · next hauth =>
        cases h
        obtain ⟨hlt, hid⟩ := Packed.find?_eq_some hj
        exact ⟨hlt, of_decide_eq_true hid, not_not.mp hauth⟩

theorem humanUpdate_ok {actor : AuthorizationPrincipal} {identifier : List UInt8}
    {change : Fin 16 → HumanRecord → Except EspErr HumanRecord}
    (h : humanUpdate actor identifier change s = .ok p) :
    ∃ (i : Fin 16) (r : HumanRecord), i.val < s.payload.humanCount.toNat ∧
      (getElem s.payload.humans i (slot_lt i)).id = identifier ∧
      humanAuthorized actor s.payload (getElem s.payload.humans i (slot_lt i)) = espOk ∧
      change i (getElem s.payload.humans i (slot_lt i)) = .ok r ∧ p = s.payload.store i r := by
  unfold humanUpdate at h
  split at h
  · cases h
  · next i hi =>
    split at h
    · cases h
    · next r hr =>
      cases h
      obtain ⟨hlt, hid, hauth⟩ := humanTarget_ok hi
      exact ⟨i, r, hlt, hid, hauth, hr, rfl⟩

theorem HumanRecord.id_congr {a b : HumanRecord} (h : a.identifier = b.identifier) : a.id = b.id :=
  congrArg cString h

theorem HumanRecord.renumbered_id (index : Nat) (human : HumanRecord) :
    (human.renumbered index).id = human.id :=
  id_congr rfl

theorem HumanOp.Changes.target {payload : SecurityDirectoryPayload} {op : HumanOp}
    {old new : HumanRecord} (h : op.Changes payload old new) : op.target? = some old.id := by
  cases h with
  | ownPassword hid => exact congrArg some hid.symm
  | _ => rfl

theorem HumanOp.Rewrites.target {op : HumanOp} {k : List UInt8} {old new : Option HumanRecord}
    (h : op.Rewrites s k old new) : op.target? = some k := by
  cases h with
  | created hnew _ _ =>
    subst hnew
    rfl
  | changed hchanges => exact hchanges.target
  | deleted _ _ => rfl

/-- A record stored in its place. -/
theorem puts_store {i : Fin 16} {new : HumanRecord} (hs : s.payload.Valid)
    (hp : (s.payload.store i new).Valid) (hlt : i.val < s.payload.humanCount.toNat)
    (hid : new.id = s.payload.humans[i].id) :
    HumanOp.Puts s.payload (s.payload.store i new) s.payload.humans[i].id
      (some s.payload.humans[i]) (some new) where
  roles := rfl
  old := Packed.get?_of_mem hs.humansKeyed (Packed.mem_entries.mpr ⟨i, hlt, rfl⟩)
  find id := by
    rw [← hid]
    exact Packed.get?_set hs.humansKeyed hlt hid hp.humansKeyed id

/-- The record of an entry that is found. -/
theorem find?_human {payload : SecurityDirectoryPayload} {identifier : List UInt8} {i : Fin 16}
    (h : Packed.find? payload.humans payload.humanCount.toNat (fun human => human.id = identifier) =
      some i) :
    i.val < payload.humanCount.toNat ∧ (getElem payload.humans i (slot_lt i)).id = identifier := by
  obtain ⟨hlt, hid⟩ := Packed.find?_eq_some h
  exact ⟨hlt, of_decide_eq_true hid⟩

/-- A record added at the end. -/
theorem puts_push {new : HumanRecord} (hs : s.payload.Valid)
    (hroom : s.payload.humanCount.toNat < 16)
    (hp : { s.payload with
      humans := s.payload.humans.set s.payload.humanCount.toNat new hroom
      humanCount := s.payload.humanCount + 1 : SecurityDirectoryPayload }.Valid) :
    HumanOp.Puts s.payload { s.payload with
      humans := s.payload.humans.set s.payload.humanCount.toNat new hroom
      humanCount := s.payload.humanCount + 1 } new.id none (some new) := by
  have hcount := succ_toNat hroom
  have hkeyed := hp.humansKeyed
  dsimp only at hkeyed
  rw [hcount] at hkeyed
  refine ⟨rfl, ?_, fun id => ?_⟩
  · refine Packed.get?_eq_none.mpr fun human hmem heq => ?_
    unfold Packed.Keyed at hkeyed
    rw [Packed.entries_push hroom, List.map_append, List.nodup_append] at hkeyed
    exact hkeyed.2.2 human.id (List.mem_map_of_mem hmem) new.id (by simp) heq
  · unfold SecurityDirectoryPayload.find
    dsimp only
    rw [hcount]
    exact Packed.get?_push hs.humansKeyed hroom hkeyed id

/-- A record taken out. -/
theorem puts_erase {i : Fin 16} (hs : s.payload.Valid) (hlt : i.val < s.payload.humanCount.toNat)
    (hp : { s.payload with
      humans := Packed.eraseShift .zero s.payload.humans s.payload.humanCount.toNat i
      humanCount := s.payload.humanCount - 1 : SecurityDirectoryPayload }.Valid) :
    HumanOp.Puts s.payload { s.payload with
      humans := Packed.eraseShift .zero s.payload.humans s.payload.humanCount.toNat i
      humanCount := s.payload.humanCount - 1 } s.payload.humans[i].id (some s.payload.humans[i]) none := by
  have hcount := @pred_toNat s.payload.humanCount (by omega)
  have hkeyed := hp.humansKeyed
  dsimp only at hkeyed
  rw [hcount] at hkeyed
  refine ⟨rfl, ?_, fun id => ?_⟩
  · exact Packed.get?_of_mem hs.humansKeyed (Packed.mem_entries.mpr ⟨i, hlt, rfl⟩)
  · unfold SecurityDirectoryPayload.find
    dsimp only
    rw [hcount]
    exact Packed.get?_eraseShift hs.humansKeyed hlt hs.humanCount hkeyed id

/-! One lemma for each function that commits. -/

section Effects

variable {actor : AuthorizationPrincipal} {identifier : List UInt8}

theorem adminCreateHuman_effect {login displayName scope password : List UInt8} {level : SecurityLevel}
    {direct : PermissionSet} {verifier : Except EspErr PasswordVerifier}
    (h : adminCreateHuman actor identifier login displayName scope level direct password verifier s = .ok p)
    (hs : s.payload.Valid) (hp : p.Valid) :
    HumanOp.Effect s p
      (.createHuman actor identifier login displayName scope level direct password verifier) := by
  unfold adminCreateHuman at h
  split at h
  · cases h
  · next hargs =>
    simp only [not_or, not_not] at hargs
    split at h
    · cases h
    · next normalized hlogin =>
      split at h
      · cases h
      · next hauth =>
        split at h
        · cases h
        · next hroom =>
          split at h
          · cases h
          · split at h
            · cases h
            · cases h
              exact .human (.created rfl (UInt8.not_lt.mp hargs.2.1) (not_not.mp hauth))
                (puts_push hs (humanCount_lt hroom) hp)

theorem adminSetEnabled_effect {enabled : Bool} (h : adminSetEnabled actor identifier enabled s = .ok p)
    (hs : s.payload.Valid) (hp : p.Valid) :
    HumanOp.Effect s p (.setEnabled actor identifier enabled) := by
  obtain ⟨i, r, hlt, rfl, hauth, hchange, rfl⟩ := humanUpdate_ok h
  split at hchange
  · cases hchange
  · next hkept =>
    cases hchange
    refine .human (.changed ?_) (puts_store hs hp hlt (HumanRecord.id_congr rfl))
    cases enabled with
    | true => exact .enabled hauth
    | false =>
      refine .disabled hauth fun hlocks => hkept ⟨Bool.false_ne_true, ?_⟩
      exact (removalWouldLockOut_iff hlt).mpr hlocks

theorem adminReplacePassword_effect {password : List UInt8} {verifier : Except EspErr PasswordVerifier}
    (h : adminReplacePassword actor identifier password verifier s = .ok p) (hs : s.payload.Valid)
    (hp : p.Valid) : HumanOp.Effect s p (.replacePassword actor identifier password verifier) := by
  unfold adminReplacePassword at h
  split at h
  · cases h
  · obtain ⟨i, r, hlt, rfl, hauth, hchange, rfl⟩ := humanUpdate_ok h
    cases verifier with
    | error err => cases hchange
    | ok verifier =>
      cases hchange
      exact .human (.changed (.password hauth)) (puts_store hs hp hlt (HumanRecord.id_congr rfl))

theorem adminReplaceOwnPassword_effect {password : List UInt8} {verifier : Except EspErr PasswordVerifier}
    (h : adminReplaceOwnPassword actor password verifier s = .ok p) (hs : s.payload.Valid)
    (hp : p.Valid) : HumanOp.Effect s p (.replaceOwnPassword actor password verifier) := by
  unfold adminReplaceOwnPassword at h
  split at h
  · cases h
  · split at h
    · cases h
    · next i hi =>
      split at h
      · cases h
      · cases h
        obtain ⟨hlt, hid⟩ := find?_human hi
        exact .human (.changed (.ownPassword hid)) (puts_store hs hp hlt (HumanRecord.id_congr rfl))

theorem adminUpdateDisplayName_effect {displayName : List UInt8}
    (h : adminUpdateDisplayName actor identifier displayName s = .ok p) (hs : s.payload.Valid)
    (hp : p.Valid) : HumanOp.Effect s p (.updateDisplayName actor identifier displayName) := by
  unfold adminUpdateDisplayName at h
  split at h
  · cases h
  · obtain ⟨i, r, hlt, rfl, hauth, hchange, rfl⟩ := humanUpdate_ok h
    obtain rfl := Except.ok.inj hchange
    exact .human (.changed (.displayName hauth)) (puts_store hs hp hlt (HumanRecord.id_congr rfl))

theorem adminAssignCustomRoles_effect {mask : UInt16}
    (h : adminAssignCustomRoles actor identifier mask s = .ok p) (hs : s.payload.Valid)
    (hp : p.Valid) : HumanOp.Effect s p (.assignCustomRoles actor identifier mask) := by
  obtain ⟨i, r, hlt, rfl, hauth, hchange, rfl⟩ := humanUpdate_ok h
  split at hchange
  · cases hchange
  · next hmask =>
    split at hchange
    · cases hchange
    · next hdelegate =>
      obtain rfl := Except.ok.inj hchange
      refine .human (.changed (.roles hauth (not_not.mp hmask) fun hne => ?_))
        (puts_store hs hp hlt (HumanRecord.id_congr rfl))
      by_contra hdenied
      exact hdelegate ⟨hne, hdenied⟩

theorem adminDeleteHuman_effect (h : adminDeleteHuman actor identifier s = .ok p) (hs : s.payload.Valid)
    (hp : p.Valid) : HumanOp.Effect s p (.deleteHuman actor identifier) := by
  unfold adminDeleteHuman at h
  split at h
  · cases h
  · next i hi =>
    split at h
    · cases h
    · next hkept =>
      obtain rfl := Except.ok.inj h
      obtain ⟨hlt, rfl, hauth⟩ := humanTarget_ok hi
      refine .human (.deleted hauth fun hlocks => hkept ?_) (puts_erase hs hlt hp)
      exact (removalWouldLockOut_iff hlt).mpr hlocks

theorem adminCreateRole_effect {level : SecurityLevel} {permissions delegable : PermissionSet}
    (h : adminCreateRole actor identifier level permissions delegable s = .ok p) :
    HumanOp.Effect s p (.createRole actor identifier level permissions delegable) := by
  unfold adminCreateRole at h
  split at h
  · cases h
  · next hallowed =>
    split at h
    · cases h
    · next hroom =>
      split at h
      · cases h
      · obtain rfl := Except.ok.inj h
        refine .roleCreated (not_not.mp hallowed) ?_ rfl rfl
        have hlt := roleCount_lt hroom
        unfold SecurityDirectoryPayload.roleEntries
        dsimp only
        rw [succ_toNat (by omega)]
        exact Packed.entries_push hlt _

theorem adminDeleteRole_effect (h : adminDeleteRole actor identifier s = .ok p) (hs : s.payload.Valid) :
    HumanOp.Effect s p (.deleteRole actor identifier) := by
  unfold adminDeleteRole at h
  split at h
  · cases h
  · split at h
    · cases h
    · next i hi =>
      split at h
      · cases h
      · next hunused =>
        obtain rfl := Except.ok.inj h
        obtain ⟨hlt, -⟩ := Packed.find?_eq_some hi
        refine .roleDeleted i.isLt (fun human hmem hbit => hunused ?_) ?_ fun id => ?_
        · exact List.any_eq_true.mpr ⟨human, hmem, (hasRole_iff (by show i.val + 6 < 16; omega)).mpr hbit⟩
        · unfold SecurityDirectoryPayload.roleEntries
          dsimp only
          rw [pred_toNat (by omega)]
          exact Packed.entries_eraseShift hlt hs.roleCount
        · exact Packed.get?_mapEntries (HumanRecord.renumbered_id i.val) id

/-- **What an operation that succeeds does.** -/
theorem HumanOp.effect {op : HumanOp} (h : op.edit s = .ok p) (hs : s.payload.Valid) (hp : p.Valid) :
    op.Effect s p := by
  cases op with
  | createHuman => exact adminCreateHuman_effect h hs hp
  | setEnabled => exact adminSetEnabled_effect h hs hp
  | replacePassword => exact adminReplacePassword_effect h hs hp
  | replaceOwnPassword => exact adminReplaceOwnPassword_effect h hs hp
  | updateDisplayName => exact adminUpdateDisplayName_effect h hs hp
  | assignCustomRoles => exact adminAssignCustomRoles_effect h hs hp
  | deleteHuman => exact adminDeleteHuman_effect h hs hp
  | createRole => exact adminCreateRole_effect h
  | deleteRole => exact adminDeleteRole_effect h hs

end Effects

end Inversion

end Argus
