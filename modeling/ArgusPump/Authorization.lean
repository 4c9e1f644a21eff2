import ArgusPump.SecurityStore
import ArgusPump.Lib.BitSet
import Mathlib.Data.Set.BooleanAlgebra
import Mathlib.Order.CompletePartialOrder

/-!
# Authorization

`main/argus_authorization.c`: principals, the permissions of a level, and who may manage
and delegate what.  A permission set is a word; `caps` is the set of its permissions.

    a & ~b == 0 ↔ caps a ⊆ caps b                                   (within_iff)
    what a level may delegate → nothing that manages client admins  (levelDelegable_caps)
-/

namespace Argus

open BitSet

/-! ## Permission sets -/

def permissionManageNetwork : PermissionSet := permissionBit 12
def permissionChangeApSecret : PermissionSet := permissionBit 13
def permissionManageClientNetwork : PermissionSet := permissionBit 14
def permissionManageMqtt : PermissionSet := permissionBit 15
def permissionInvokeRecovery : PermissionSet := permissionBit 21

/-- The permissions in a set. -/
def caps (p : PermissionSet) : Set Nat := bits p.toBitVec

/-- No permission of `p` is missing from `q`. -/
def Within (p q : PermissionSet) : Prop := p &&& ~~~q = 0

instance (p q : PermissionSet) : Decidable (Within p q) := inferInstanceAs (Decidable (_ = _))

@[simp] theorem caps_or (p q : PermissionSet) : caps (p ||| q) = caps p ∪ caps q := by
  unfold caps
  rw [UInt64.toBitVec_or, bits_or]

@[simp] theorem caps_and (p q : PermissionSet) : caps (p &&& q) = caps p ∩ caps q := by
  unfold caps
  rw [UInt64.toBitVec_and, bits_and]

@[simp] theorem caps_and_not (p q : PermissionSet) : caps (p &&& ~~~q) = caps p \ caps q := by
  unfold caps
  rw [UInt64.toBitVec_and, UInt64.toBitVec_not, bits_and_not]

@[simp] theorem caps_zero : caps 0 = ∅ := bits_zero

theorem caps_injective : Function.Injective caps := fun _ _ h =>
  UInt64.toBitVec_inj.mp (bits_injective h)

theorem eq_zero_iff_caps {p : PermissionSet} : p = 0 ↔ caps p = ∅ := by
  rw [← caps_injective.eq_iff, caps_zero]

theorem within_iff {p q : PermissionSet} : Within p q ↔ caps p ⊆ caps q := by
  unfold Within
  rw [eq_zero_iff_caps, caps_and_not, Set.sdiff_eq_empty]

theorem and_eq_zero_iff_caps {p q : PermissionSet} : p &&& q = 0 ↔ Disjoint (caps p) (caps q) := by
  rw [eq_zero_iff_caps, caps_and, Set.disjoint_iff_inter_eq_empty]

/-! ## Levels -/

/-- The level a record's byte names. -/
def SecurityLevel.ofCode (code : UInt8) : SecurityLevel :=
  if code = 0 then .argusPersonnel
  else if code = 1 then .clientAdmin
  else if code = 2 then .supervisor
  else if code = 3 then .operator
  else if code = 4 then .viewer
  else .machine

/-- `OPERATIONAL`. -/
def operational : PermissionSet :=
  permissionViewStatus ||| permissionRequestAuthority ||| permissionMotion |||
    permissionSoftwareEstop ||| permissionResetSoftwareEstop ||| permissionAckAlarms

/-- `argus_authorization_level_permissions`. -/
def levelPermissions : SecurityLevel → PermissionSet
  | .argusPersonnel => permissionDefinedMask
  | .clientAdmin => operational ||| permissionManageUsers ||| permissionManageRoles |||
      permissionEnrollMachines ||| permissionRevokeMachines ||| permissionViewAudit
  | .supervisor => operational
  | .operator => operational
  | .viewer => permissionViewStatus
  | .machine => 0

/-- What no level may delegate. -/
def undelegable : PermissionSet :=
  permissionManageClientAdmins ||| permissionModifyIdentity ||| permissionModifyProtectedConfig |||
    permissionCommission ||| permissionCalibrate ||| permissionManageFirmware |||
    permissionFullSecurityReset

/-- `argus_authorization_level_delegable`. -/
def levelDelegable (level : SecurityLevel) : PermissionSet := levelPermissions level &&& ~~~undelegable

theorem levelDelegable_caps (level : SecurityLevel) :
    caps (levelDelegable level) = caps (levelPermissions level) \ caps undelegable :=
  caps_and_not _ _

/-! ## Principals -/

/-- `argus_principal_type_t`. -/
inductive PrincipalType
  | none
  | console
  | human
  | machine
deriving DecidableEq

/-- `argus_principal_t`. -/
structure AuthorizationPrincipal where
  type : PrincipalType
  identifier : Vector UInt8 37
  scope : Vector UInt8 37
  level : SecurityLevel
  permissions : PermissionSet
  delegablePermissions : PermissionSet
  credentialVersion : UInt32
  securityEpoch : UInt32
  principalRevision : UInt32
  protectedIdentity : Bool
deriving DecidableEq

/-- `argus_authorization_principal_valid`. -/
def principalValid (principal : AuthorizationPrincipal) : Bool :=
  if (principal.type ≠ .console ∧ principal.type ≠ .human) ∨
      principal.level.code > SecurityLevel.viewer.code ∨
      strlen principal.identifier = 0 ∨ strlen principal.scope = 0 ∨
      principal.credentialVersion = 0 ∨ principal.securityEpoch = 0 ∨
      principal.principalRevision = 0 ∨
      principal.permissions &&& ~~~permissionDefinedMask ≠ 0 ∨
      principal.delegablePermissions &&& ~~~principal.permissions ≠ 0 ∨
      principal.delegablePermissions &&& permissionManageClientAdmins ≠ 0 then false
  else strlen principal.identifier < 37 && strlen principal.scope < 37

/-- `argus_authorization_result_t`. -/
inductive AuthorizationResult
  | allow
  | denyInvalid
  | denyCapability
  | denyScope
  | denyLevel
  | denyDelegation
  | denyProtected
deriving DecidableEq

/-- `argus_authorization_require`. -/
def authorizationRequire (principal : AuthorizationPrincipal) (required : PermissionSet) :
    AuthorizationResult :=
  if ¬ principalValid principal ∨ required = 0 ∨ required &&& ~~~permissionDefinedMask ≠ 0 then
    .denyInvalid
  else if principal.permissions &&& required = required then .allow
  else .denyCapability

/-- `scope_contains`. -/
def authorizationScopeContains (actor target : List UInt8) : Bool := actor = [0x2A] || actor = target

/-- `argus_authorization_manage_target`. -/
def authorizationManageTarget (actor : AuthorizationPrincipal) (targetLevel : SecurityLevel)
    (targetScope : List UInt8) (targetProtected : Bool) : AuthorizationResult :=
  let capability := authorizationRequire actor permissionManageUsers
  if capability ≠ .allow then capability
  else if targetLevel.code > SecurityLevel.viewer.code then .denyInvalid
  else if targetProtected ∨ targetLevel = .argusPersonnel then
    if actor.level = .argusPersonnel then .allow else .denyProtected
  else if ¬ authorizationScopeContains (cString actor.scope) targetScope then .denyScope
  else if targetLevel.code < actor.level.code then .denyLevel
  else if targetLevel = .clientAdmin ∧ actor.permissions &&& permissionManageClientAdmins = 0 then
    .denyCapability
  else if actor.level.code > SecurityLevel.clientAdmin.code ∧
      targetLevel.code < SecurityLevel.operator.code then .denyLevel
  else .allow

/-- `argus_authorization_delegate`. -/
def authorizationDelegate (actor : AuthorizationPrincipal) (targetLevel : SecurityLevel)
    (targetScope : List UInt8) (requested : PermissionSet) : AuthorizationResult :=
  let target := authorizationManageTarget actor targetLevel targetScope false
  if target ≠ .allow then target
  else if requested = 0 ∨ requested &&& ~~~permissionDefinedMask ≠ 0 then .denyInvalid
  else if requested &&& ~~~actor.permissions ≠ 0 ∨ requested &&& ~~~actor.delegablePermissions ≠ 0 ∨
      requested &&& permissionManageClientAdmins ≠ 0 then .denyDelegation
  else .allow

end Argus
