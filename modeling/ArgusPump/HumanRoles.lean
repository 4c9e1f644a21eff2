import ArgusPump.Authorization
import ArgusPump.SecurityDirectory

/-!
# Roles of humans

A human's permissions come from the record and from the roles its mask names: the low bits
are the levels, the others the custom roles of the directory.  `human_permissions` of
`main/argus_security_admin.c` adds them up for the checks, `build_human_principal` of
`main/argus_auth_service.c` at login.

    a valid human → both add up the same permissions                 (buildHumanPrincipal_some)
    a role added, or an unused one deleted and the others renumbered → every mask still names
      the same permissions                                           (roleCaps_append, roleCaps_erased)
    custom roles assigned → the level's permissions and theirs       (roleCaps_assigned)
-/

namespace Argus

open BitSet

/-! ## Masks -/

def hasRole (mask : UInt16) (bit : Nat) : Bool := mask &&& 1 <<< bit.toUInt16 ≠ 0

/-- The bits of a mask, in the order of the loops over them. -/
def roleBits (mask : UInt16) : List Nat := (List.range securityMaxRoles.toNat).filter (hasRole mask)

/-- A mask as a set of roles. -/
def maskRoles (mask : UInt16) : Set Nat := bits mask.toBitVec

theorem one_shiftLeft_toBitVec {n : Nat} (h : n < 16) :
    (1 <<< n.toUInt16 : UInt16).toBitVec = 1#16 <<< n := by
  have hall : ∀ i : Fin 16, (1 <<< i.val.toUInt16 : UInt16).toBitVec = 1#16 <<< i.val := by decide
  exact hall ⟨n, h⟩

theorem toUInt16_toNat (code : UInt8) : code.toUInt16 = code.toNat.toUInt16 := by
  apply UInt16.toNat_inj.mp
  rw [UInt8.toNat_toUInt16]
  have := code.toNat_lt
  exact (Nat.mod_eq_of_lt (by omega)).symm

theorem hasRole_iff {mask : UInt16} {bit : Nat} (h : bit < 16) :
    hasRole mask bit = true ↔ bit ∈ maskRoles mask := by
  unfold hasRole maskRoles
  rw [decide_eq_true_eq, ne_eq, ← UInt16.toBitVec_inj, UInt16.toBitVec_and, one_shiftLeft_toBitVec h]
  show ¬ mask.toBitVec &&& 1#16 <<< bit = 0#16 ↔ _
  rw [show (0#16) = (0 : BitVec 16) from rfl, eq_zero_iff, bits_and, bits_one_shiftLeft h,
    Set.inter_singleton_eq_empty, not_not]

theorem mem_roleBits {mask : UInt16} {bit : Nat} : bit ∈ roleBits mask ↔ bit ∈ maskRoles mask := by
  unfold roleBits
  rw [List.mem_filter, List.mem_range]
  constructor
  · rintro ⟨hlt, hbit⟩
    exact (hasRole_iff hlt).mp hbit
  · intro hbit
    have hlt := bits_lt hbit
    exact ⟨hlt, (hasRole_iff hlt).mpr hbit⟩

/-- The mask after custom role `index` is gone: `argus_security_admin_delete_role`. -/
def renumberedMask (index : Nat) (mask : UInt16) : UInt16 :=
  let roleBit : UInt16 := 1 <<< (index + securityBuiltinRoleCount.toNat).toUInt16
  let lower := roleBit - 1
  (mask &&& lower) ||| ((mask &&& ~~~(lower ||| roleBit)) >>> 1)

/-- The bits above the role's move down by one. -/
theorem maskRoles_renumbered {index : Nat} (h : index < 10) (mask : UInt16) :
    maskRoles (renumberedMask index mask) =
      {i | i < index + 6 ∧ i ∈ maskRoles mask ∨ index + 6 ≤ i ∧ i + 1 ∈ maskRoles mask} := by
  have hlt : index + 6 < 16 := by omega
  have hbit : ((1 <<< (index + 6).toUInt16 : UInt16)).toBitVec = 1#16 <<< (index + 6) :=
    one_shiftLeft_toBitVec hlt
  have hlower : ((1 <<< (index + 6).toUInt16 : UInt16) - 1).toBitVec = 1#16 <<< (index + 6) - 1#16 := by
    rw [UInt16.toBitVec_sub, hbit]
    rfl
  have hmask : (renumberedMask index mask).toBitVec =
      (mask.toBitVec &&& (1#16 <<< (index + 6) - 1#16)) |||
        ((mask.toBitVec &&& ~~~((1#16 <<< (index + 6) - 1#16) ||| 1#16 <<< (index + 6))) >>> 1) := by
    rw [← hlower, ← hbit]
    rfl
  unfold maskRoles
  rw [hmask, bits_or, bits_and, bits_shiftRight, bits_and_not, bits_or, bits_below hlt,
    bits_one_shiftLeft hlt]
  ext i
  simp only [Set.mem_union, Set.mem_inter_iff, Set.mem_ofPred_eq, Set.mem_sdiff, Set.mem_singleton_iff,
    mem_bits]
  rw [Nat.add_comm 1 i]
  constructor
  · rintro (⟨hi, hlow⟩ | ⟨hi, habove⟩)
    · exact .inl ⟨hlow, hi⟩
    · exact .inr ⟨by omega, hi⟩
  · rintro (⟨hlow, hi⟩ | ⟨habove, hi⟩)
    · exact .inl ⟨hi, hlow⟩
    · exact .inr ⟨hi, by omega⟩

/-- The mask of `argus_security_admin_assign_custom_roles`: the level's bit and the custom roles'. -/
theorem maskRoles_assigned {level : UInt8} (h : level.toNat < 16) (mask : UInt16) :
    maskRoles (1 <<< level.toUInt16 ||| mask <<< securityBuiltinRoleCount.toUInt16) =
      {level.toNat} ∪ {i | i < 16 ∧ 6 ≤ i ∧ i - 6 ∈ maskRoles mask} := by
  have hshift : (mask <<< securityBuiltinRoleCount.toUInt16).toBitVec = mask.toBitVec <<< 6 := rfl
  unfold maskRoles
  rw [UInt16.toBitVec_or, bits_or, toUInt16_toNat, one_shiftLeft_toBitVec h, bits_one_shiftLeft h,
    hshift, bits_shiftLeft]

/-! ## What a mask grants -/

/-- What a role permits and what of it may be delegated. -/
structure RoleGrant where
  permissions : PermissionSet
  delegable : PermissionSet

/-- The role of a bit, built in or custom. -/
def grantOf (roles : List RoleRecord) (bit : Nat) : Option RoleGrant :=
  if bit < securityBuiltinRoleCount.toNat then
    some ⟨levelPermissions (.ofCode bit.toUInt8), levelDelegable (.ofCode bit.toUInt8)⟩
  else
    roles[bit - securityBuiltinRoleCount.toNat]?.map fun role =>
      ⟨role.permissions, role.delegablePermissions⟩

/-- The roles of some bits, unless one is past the custom roles. -/
def grantsOf (roles : List RoleRecord) : List Nat → Option (List RoleGrant)
  | [] => some []
  | bit :: bits =>
    match grantOf roles bit, grantsOf roles bits with
    | some grant, some grants => some (grant :: grants)
    | _, _ => none

/-- A set of permissions with those of some roles. -/
def addGrants (f : RoleGrant → PermissionSet) (start : PermissionSet) (grants : List RoleGrant) :
    PermissionSet :=
  grants.foldl (fun result grant => result ||| f grant) start

/-- `human_permissions`. -/
def humanPermissions (payload : SecurityDirectoryPayload) (human : HumanRecord) : PermissionSet :=
  match grantsOf payload.roleEntries (roleBits human.roleMask) with
  | none => 0xFFFFFFFFFFFFFFFF
  | some grants => addGrants RoleGrant.permissions human.directPermissions grants

/-- `build_human_principal`. -/
def buildHumanPrincipal (human : HumanRecord) (payload : SecurityDirectoryPayload)
    (securityEpoch : UInt32) : Option AuthorizationPrincipal :=
  if ¬ human.valid ∨ human.enabled = 0 ∨ human.revoked ≠ 0 then none
  else
    match grantsOf payload.roleEntries (roleBits human.roleMask) with
    | none => none
    | some grants =>
      let permissions :=
        addGrants RoleGrant.permissions human.directPermissions grants &&& permissionDefinedMask
      let principal : AuthorizationPrincipal :=
        { type := .human
          identifier := strlcpy 37 (cString human.identifier)
          scope := strlcpy 37 (cString human.scope)
          level := .ofCode human.level
          permissions := permissions
          delegablePermissions :=
            addGrants RoleGrant.delegable 0 grants &&& permissions &&& ~~~permissionManageClientAdmins
          credentialVersion := human.credentialVersion
          securityEpoch := securityEpoch
          principalRevision := human.recordSecurityEpoch
          protectedIdentity := human.protectedIdentity ≠ 0 }
      if principalValid principal then some principal else none

/-- The principal of the console's login, in `argus_auth_service_authenticate`. -/
def consolePrincipal (version securityEpoch : UInt32) : AuthorizationPrincipal where
  type := .console
  identifier := strlcpy 37 (asciiBytes "argus_console")
  scope := strlcpy 37 (asciiBytes "*")
  level := .argusPersonnel
  permissions := permissionDefinedMask
  delegablePermissions := levelDelegable .argusPersonnel
  credentialVersion := version
  securityEpoch := securityEpoch
  principalRevision := securityEpoch
  protectedIdentity := true

/-- What the roles of a mask permit, or may delegate. -/
def roleCaps (f : RoleGrant → PermissionSet) (roles : List RoleRecord) (mask : UInt16) : Set Nat :=
  {i | ∃ bit ∈ maskRoles mask, ∃ grant, grantOf roles bit = some grant ∧ i ∈ caps (f grant)}

/-- No bit of a mask is past the custom roles. -/
def MaskInRange (roles : List RoleRecord) (mask : UInt16) : Prop :=
  ∀ bit ∈ maskRoles mask, bit < securityBuiltinRoleCount.toNat + roles.length

variable {roles : List RoleRecord} {mask : UInt16}

theorem grantOf_isSome {bit : Nat} (h : bit < securityBuiltinRoleCount.toNat + roles.length) :
    ∃ grant, grantOf roles bit = some grant := by
  unfold grantOf
  split
  · exact ⟨_, rfl⟩
  · rw [List.getElem?_eq_getElem (by omega), Option.map_some]
    exact ⟨_, rfl⟩

/-- The role of a level. -/
theorem grantOf_level (roles : List RoleRecord) {level : UInt8} (h : level.toNat ≤ 4) :
    grantOf roles level.toNat =
      some ⟨levelPermissions (.ofCode level), levelDelegable (.ofCode level)⟩ := by
  unfold grantOf
  rw [if_pos (by show level.toNat < 6; omega), show level.toNat.toUInt8 = level by simp]

theorem mem_grantsOf {bits : List Nat} {grants : List RoleGrant} (h : grantsOf roles bits = some grants)
    {grant : RoleGrant} : grant ∈ grants ↔ ∃ bit ∈ bits, grantOf roles bit = some grant := by
  induction bits generalizing grants with
  | nil =>
    cases h
    simp
  | cons bit bits ih =>
    unfold grantsOf at h
    split at h
    · next first rest hfirst hrest =>
      cases h
      rw [List.mem_cons, ih hrest]
      constructor
      · rintro (rfl | ⟨b, hb, hgrant⟩)
        · exact ⟨bit, List.mem_cons_self, hfirst⟩
        · exact ⟨b, List.mem_cons_of_mem _ hb, hgrant⟩
      · rintro ⟨b, hb, hgrant⟩
        rcases List.mem_cons.mp hb with rfl | hb
        · exact .inl (Option.some.inj (hgrant.symm.trans hfirst))
        · exact .inr ⟨b, hb, hgrant⟩
    · cases h

theorem grantsOf_isSome {bits : List Nat}
    (h : ∀ bit ∈ bits, bit < securityBuiltinRoleCount.toNat + roles.length) :
    ∃ grants, grantsOf roles bits = some grants := by
  induction bits with
  | nil => exact ⟨[], rfl⟩
  | cons bit bits ih =>
    obtain ⟨grant, hgrant⟩ := grantOf_isSome (h bit List.mem_cons_self)
    obtain ⟨grants, hgrants⟩ := ih fun b hb => h b (List.mem_cons_of_mem _ hb)
    refine ⟨grant :: grants, ?_⟩
    unfold grantsOf
    rw [hgrant, hgrants]

theorem caps_addGrants (f : RoleGrant → PermissionSet) (start : PermissionSet) (grants : List RoleGrant) :
    caps (addGrants f start grants) = caps start ∪ {i | ∃ grant ∈ grants, i ∈ caps (f grant)} := by
  unfold addGrants
  induction grants generalizing start with
  | nil => simp
  | cons grant grants ih =>
    rw [List.foldl_cons, ih, caps_or]
    ext i
    simp only [Set.mem_union, Set.mem_ofPred_eq, List.mem_cons, exists_eq_or_imp, or_assoc]

/-- What the loops over a mask add up. -/
theorem caps_grants {grants : List RoleGrant} (h : grantsOf roles (roleBits mask) = some grants)
    (f : RoleGrant → PermissionSet) (start : PermissionSet) :
    caps (addGrants f start grants) = caps start ∪ roleCaps f roles mask := by
  rw [caps_addGrants]
  ext i
  simp only [Set.mem_union, Set.mem_ofPred_eq, roleCaps]
  refine or_congr_right ?_
  constructor
  · rintro ⟨grant, hmem, hi⟩
    obtain ⟨bit, hbit, hgrant⟩ := (mem_grantsOf h).mp hmem
    exact ⟨bit, mem_roleBits.mp hbit, grant, hgrant, hi⟩
  · rintro ⟨bit, hbit, grant, hgrant, hi⟩
    exact ⟨grant, (mem_grantsOf h).mpr ⟨bit, mem_roleBits.mpr hbit, hgrant⟩, hi⟩

theorem MaskInRange.grants (h : MaskInRange roles mask) :
    ∃ grants, grantsOf roles (roleBits mask) = some grants :=
  grantsOf_isSome fun bit hbit => h bit (mem_roleBits.mp hbit)

/-- **Effective permissions.** -/
theorem caps_humanPermissions {payload : SecurityDirectoryPayload} {human : HumanRecord}
    (h : MaskInRange payload.roleEntries human.roleMask) :
    caps (humanPermissions payload human) =
      caps human.directPermissions ∪ roleCaps RoleGrant.permissions payload.roleEntries human.roleMask := by
  obtain ⟨grants, hgrants⟩ := h.grants
  unfold humanPermissions
  rw [hgrants]
  exact caps_grants hgrants _ _

/-! ## Roles that come and go -/

/-- A role added. -/
theorem roleCaps_append (h : MaskInRange roles mask) (f : RoleGrant → PermissionSet) (role : RoleRecord) :
    roleCaps f (roles ++ [role]) mask = roleCaps f roles mask := by
  unfold roleCaps
  ext i
  refine exists_congr fun bit => and_congr_right fun hbit => ?_
  have hlt := h bit hbit
  have hsame : grantOf (roles ++ [role]) bit = grantOf roles bit := by
    unfold grantOf
    split
    · rfl
    · rw [List.getElem?_append_left (by omega)]
  rw [hsame]

/-- A role nobody has deleted, and the masks renumbered. -/
theorem roleCaps_erased {index : Nat} (h : index < 10) (f : RoleGrant → PermissionSet)
    (hunused : index + 6 ∉ maskRoles mask) :
    roleCaps f (roles.eraseIdx index) (renumberedMask index mask) = roleCaps f roles mask := by
  have hbelow (bit : Nat) (hlt : bit < index + 6) :
      grantOf (roles.eraseIdx index) bit = grantOf roles bit := by
    unfold grantOf
    split
    · rfl
    · next hcustom =>
      have hcustom : ¬ bit < 6 := hcustom
      rw [List.getElem?_eraseIdx_of_lt (by show bit - 6 < index; omega)]
  have habove (bit : Nat) (hle : index + 6 ≤ bit) :
      grantOf (roles.eraseIdx index) bit = grantOf roles (bit + 1) := by
    unfold grantOf
    rw [if_neg (by show ¬ bit < 6; omega), if_neg (by show ¬ bit + 1 < 6; omega),
      List.getElem?_eraseIdx_of_ge (by show index ≤ bit - 6; omega)]
    show (roles[bit - 6 + 1]?).map _ = (roles[bit + 1 - 6]?).map _
    rw [show bit - 6 + 1 = bit + 1 - 6 by omega]
  unfold roleCaps
  rw [maskRoles_renumbered h]
  ext i
  simp only [Set.mem_ofPred_eq]
  constructor
  · rintro ⟨bit, ⟨hlt, hbit⟩ | ⟨hle, hbit⟩, grant, hgrant, hi⟩
    · exact ⟨bit, hbit, grant, (hbelow bit hlt).symm.trans hgrant, hi⟩
    · exact ⟨bit + 1, hbit, grant, (habove bit hle).symm.trans hgrant, hi⟩
  · rintro ⟨bit, hbit, grant, hgrant, hi⟩
    rcases Nat.lt_trichotomy bit (index + 6) with hlt | rfl | hgt
    · exact ⟨bit, .inl ⟨hlt, hbit⟩, grant, (hbelow bit hlt).trans hgrant, hi⟩
    · exact absurd hbit hunused
    · obtain ⟨b, rfl⟩ : ∃ b, bit = b + 1 := ⟨bit - 1, by omega⟩
      exact ⟨b, .inr ⟨by omega, hbit⟩, grant, (habove b (by omega)).trans hgrant, hi⟩

/-! ## Assigned roles -/

/-- What a mask of custom roles permits. -/
def customCaps (roles : List RoleRecord) (mask : UInt16) : Set Nat :=
  {i | ∃ j ∈ maskRoles mask, ∃ role, roles[j]? = some role ∧ i ∈ caps role.permissions}

theorem caps_foldl_roles (entries : List (RoleRecord × Nat)) (start : PermissionSet) :
    caps (entries.foldl (fun permissions role => permissions ||| role.1.permissions) start) =
      caps start ∪ {i | ∃ role ∈ entries, i ∈ caps role.1.permissions} := by
  induction entries generalizing start with
  | nil => simp
  | cons entry entries ih =>
    rw [List.foldl_cons, ih, caps_or]
    ext i
    simp only [Set.mem_union, Set.mem_ofPred_eq, List.mem_cons, exists_eq_or_imp, or_assoc]

/-- What the mask of `argus_security_admin_assign_custom_roles` permits. -/
theorem roleCaps_assigned (hroles : roles.length ≤ 10) {level : UInt8} (h : level.toNat ≤ 4)
    (mask : UInt16) :
    roleCaps RoleGrant.permissions roles
        (1 <<< level.toUInt16 ||| mask <<< securityBuiltinRoleCount.toUInt16) =
      caps (levelPermissions (.ofCode level)) ∪ customCaps roles mask := by
  have hlevel := grantOf_level roles h
  have hcustom (j : Nat) : grantOf roles (j + 6) =
      roles[j]?.map fun role => ⟨role.permissions, role.delegablePermissions⟩ := by
    unfold grantOf
    rw [if_neg (by show ¬ j + 6 < 6; omega)]
    rfl
  unfold roleCaps
  rw [maskRoles_assigned (by omega)]
  ext i
  constructor
  · rintro ⟨bit, rfl | ⟨hlt, hge, hbit⟩, grant, hgrant, hi⟩
    · cases hlevel.symm.trans hgrant
      exact .inl hi
    · obtain ⟨j, rfl⟩ : ∃ j, bit = j + 6 := ⟨bit - 6, by omega⟩
      obtain ⟨role, hrole, rfl⟩ := Option.map_eq_some_iff.mp ((hcustom j).symm.trans hgrant)
      exact .inr ⟨j, hbit, role, hrole, hi⟩
  · rintro (hi | ⟨j, hj, role, hrole, hi⟩)
    · exact ⟨level.toNat, .inl rfl, _, hlevel, hi⟩
    · obtain ⟨hlt, -⟩ := List.getElem?_eq_some_iff.mp hrole
      refine ⟨j + 6, .inr ⟨by omega, by omega, hj⟩, _, (hcustom j).trans (by rw [hrole]; rfl), hi⟩

/-! ## Valid directories -/

theorem maskRoles_subset_iff {mask allowed : UInt16} :
    mask &&& ~~~allowed = 0 ↔ maskRoles mask ⊆ maskRoles allowed := by
  rw [← UInt16.toBitVec_inj, UInt16.toBitVec_and, UInt16.toBitVec_not]
  exact and_not_eq_zero_iff

section Directory

variable {p : SecurityDirectoryPayload} {human : HumanRecord}

theorem roleEntries_length (hp : p.Valid) : p.roleEntries.length = p.customRoleCount.toNat :=
  Packed.length_entries hp.roleCount

theorem maskRoles_allowedRoles :
    maskRoles p.allowedRoles =
      {bit | bit < 16 ∧ bit < securityBuiltinRoleCount.toNat + p.customRoleCount.toNat} := by
  have hsix : securityBuiltinRoleCount.toNat = 6 := rfl
  rw [hsix]
  unfold SecurityDirectoryPayload.allowedRoles
  split
  · next hfull =>
    rw [hsix] at hfull
    ext bit
    unfold maskRoles
    rw [mem_bits, show (0xFFFF : UInt16).toBitVec = BitVec.allOnes 16 from rfl, BitVec.getLsbD_allOnes,
      decide_eq_true_eq, Set.mem_ofPred_eq]
    omega
  · next hroom =>
    rw [hsix] at hroom
    have hsum : securityBuiltinRoleCount.toUInt16 + p.customRoleCount.toUInt16 =
        (6 + p.customRoleCount.toNat).toUInt16 := by
      apply UInt16.toNat_inj.mp
      rw [UInt16.toNat_add, UInt8.toNat_toUInt16]
      rfl
    have hbelow : maskRoles (1 <<< (6 + p.customRoleCount.toNat).toUInt16 - 1) =
        bits (1#16 <<< (6 + p.customRoleCount.toNat) - 1#16) := by
      unfold maskRoles
      rw [UInt16.toBitVec_sub, one_shiftLeft_toBitVec (by omega)]
      rfl
    rw [hsum, hbelow, bits_below (by omega)]
    ext bit
    rw [Set.mem_ofPred_eq, Set.mem_ofPred_eq]
    omega

/-- The mask of a valid human names roles there are, its level among them. -/
theorem humanValid_mask (hp : p.Valid) (h : p.humanValid human = true) :
    MaskInRange p.roleEntries human.roleMask ∧ human.level.toNat ≤ 4 ∧
      human.level.toNat ∈ maskRoles human.roleMask := by
  unfold SecurityDirectoryPayload.humanValid at h
  rw [Bool.and_eq_true, Bool.and_eq_true, decide_eq_true_eq, decide_eq_true_eq] at h
  obtain ⟨⟨hvalid, hmask⟩, hlevel⟩ := h
  have hle : human.level.toNat ≤ 4 := by
    unfold HumanRecord.valid at hvalid
    simp only [Bool.and_eq_true, decide_eq_true_eq] at hvalid
    exact UInt8.le_iff_toNat_le.mp hvalid.1.1.1.1.1.1.1.1.1.1.1.1.1.1.2
  refine ⟨fun bit hbit => ?_, hle, ?_⟩
  · rw [roleEntries_length hp]
    have hallowed := maskRoles_subset_iff.mp hmask hbit
    rw [maskRoles_allowedRoles] at hallowed
    exact hallowed.2
  · rw [toUInt16_toNat] at hlevel
    exact (hasRole_iff (by omega)).mp (decide_eq_true hlevel)

theorem levelPermissions_defined (level : SecurityLevel) :
    caps (levelPermissions level) ⊆ caps permissionDefinedMask := by
  rw [← within_iff]
  cases level <;> decide

theorem roleEntry_defined (hp : p.Valid) {role : RoleRecord} (h : role ∈ p.roleEntries) :
    caps role.permissions ⊆ caps permissionDefinedMask := by
  rw [← within_iff]
  have hvalid := hp.roles role h
  unfold SecurityDirectoryPayload.roleValid at hvalid
  simp only [Bool.and_eq_true] at hvalid
  have hrole := hvalid.1.1.1
  unfold RoleRecord.valid at hrole
  split at hrole
  · cases hrole
  · next hgood =>
    simp only [not_or, not_not] at hgood
    exact hgood.2.2.2.2.2.1

theorem grantOf_defined (hp : p.Valid) {bit : Nat} {grant : RoleGrant}
    (h : grantOf p.roleEntries bit = some grant) : caps grant.permissions ⊆ caps permissionDefinedMask := by
  unfold grantOf at h
  split at h
  · cases h
    exact levelPermissions_defined _
  · obtain ⟨role, hrole, rfl⟩ := Option.map_eq_some_iff.mp h
    exact roleEntry_defined hp (List.mem_of_getElem? hrole)

theorem direct_defined (h : human.valid = true) :
    caps human.directPermissions ⊆ caps permissionDefinedMask := by
  rw [← within_iff]
  unfold HumanRecord.valid at h
  simp only [Bool.and_eq_true, decide_eq_true_eq] at h
  exact h.1.2

/-- The permissions of a human in a valid directory. -/
theorem caps_human (hp : p.Valid) (h : human ∈ p.humanEntries) :
    caps (humanPermissions p human) =
      caps human.directPermissions ∪ roleCaps RoleGrant.permissions p.roleEntries human.roleMask :=
  caps_humanPermissions (humanValid_mask hp (hp.humans human h)).1

theorem humanPermissions_defined (hp : p.Valid) (h : human ∈ p.humanEntries) :
    caps (humanPermissions p human) ⊆ caps permissionDefinedMask := by
  have hvalid : human.valid = true := by
    have := hp.humans human h
    unfold SecurityDirectoryPayload.humanValid at this
    rw [Bool.and_eq_true, Bool.and_eq_true] at this
    exact this.1.1
  rw [caps_human hp h]
  rintro i (hi | ⟨bit, -, grant, hgrant, hi⟩)
  · exact direct_defined hvalid hi
  · exact grantOf_defined hp hgrant hi

/-- **What login captures** is what the checks add up, and a part of it to delegate. -/
theorem buildHumanPrincipal_some (hp : p.Valid) (h : human ∈ p.humanEntries) {epoch : UInt32}
    {principal : AuthorizationPrincipal} (hbuild : buildHumanPrincipal human p epoch = some principal) :
    human.enabled ≠ 0 ∧ human.revoked = 0 ∧ principal.type = .human ∧
      principal.identifier = strlcpy 37 (cString human.identifier) ∧
      principal.level = .ofCode human.level ∧
      principal.credentialVersion = human.credentialVersion ∧ principal.securityEpoch = epoch ∧
      principal.principalRevision = human.recordSecurityEpoch ∧
      principal.permissions = humanPermissions p human ∧
      caps principal.delegablePermissions =
        (roleCaps RoleGrant.delegable p.roleEntries human.roleMask ∩ caps (humanPermissions p human)) \
          caps permissionManageClientAdmins := by
  obtain ⟨grants, hgrants⟩ := (humanValid_mask hp (hp.humans human h)).1.grants
  have hsame : addGrants RoleGrant.permissions human.directPermissions grants = humanPermissions p human := by
    unfold humanPermissions
    rw [hgrants]
  have hmasked : humanPermissions p human &&& permissionDefinedMask = humanPermissions p human := by
    apply caps_injective
    rw [caps_and]
    exact Set.inter_eq_left.mpr (humanPermissions_defined hp h)
  unfold buildHumanPrincipal at hbuild
  split at hbuild
  · cases hbuild
  · next husable =>
    simp only [not_or, not_not] at husable
    rw [hgrants] at hbuild
    dsimp only at hbuild
    split at hbuild
    · cases hbuild
      refine ⟨husable.2.1, husable.2.2, rfl, rfl, rfl, rfl, rfl, rfl, ?_, ?_⟩
      · rw [hsame, hmasked]
      · rw [caps_and_not, caps_and, hsame, hmasked, caps_grants hgrants, caps_zero, Set.empty_union]
    · cases hbuild

end Directory

end Argus
