import ArgusPump.SecurityAdmin

/-!
# A role deleted

Roles are named by bit: bit 6 + i of a human's mask is custom role i.
`argus_security_admin_delete_role` moves the later roles down by one place and the bits above
the role's by one bit.

    the humans' masks, renumbered → no bit past the roles that are left, the level's kept
                                                                     (humanValid_renumbered)
    a role no human holds, deleted → a valid payload with the other roles, in which every human
      has the same permissions and the same principal at login        (delete_role_preserves)
-/

namespace Argus

open BitSet

section Masks

variable {p : SecurityDirectoryPayload} {human : HumanRecord}

/-- A mask that only names roles there are. -/
theorem allowedRoles_iff {mask : UInt16} :
    mask &&& ~~~p.allowedRoles = 0 ↔
      ∀ bit ∈ maskRoles mask, bit < securityBuiltinRoleCount.toNat + p.customRoleCount.toNat := by
  rw [maskRoles_subset_iff, maskRoles_allowedRoles]
  constructor
  · intro h bit hbit
    exact (h hbit).2
  · intro h bit hbit
    exact ⟨bits_lt hbit, h bit hbit⟩

/-- The level's bit is below those of the custom roles. -/
theorem level_mem_renumbered {index : Nat} (hindex : index < 10) {level : Nat} (hlevel : level ≤ 4)
    {mask : UInt16} (h : level ∈ maskRoles mask) : level ∈ maskRoles (renumberedMask index mask) := by
  rw [maskRoles_renumbered hindex]
  exact .inl ⟨by omega, h⟩

theorem ne_zero_of_mem {mask : UInt16} {bit : Nat} (h : bit ∈ maskRoles mask) : mask ≠ 0 := by
  rintro rfl
  have hnone : maskRoles 0 = ∅ := bits_zero
  rw [hnone] at h
  exact h

/-- The check of a record sees of its mask only whether it is zero. -/
theorem valid_renumbered {index : Nat} (h : human.roleMask ≠ 0)
    (h' : renumberedMask index human.roleMask ≠ 0) :
    (human.renumbered index).valid = human.valid := by
  unfold HumanRecord.valid HumanRecord.renumbered
  dsimp only
  rw [decide_eq_true h, decide_eq_true h']

/-- The bits of custom roles move down with the roles. -/
theorem renumbered_inRange {index : Nat} (hindex : index < 10) {mask : UInt16} {count : Nat}
    (hcount : index < count)
    (h : ∀ bit ∈ maskRoles mask, bit < securityBuiltinRoleCount.toNat + count) :
    ∀ bit ∈ maskRoles (renumberedMask index mask),
      bit < securityBuiltinRoleCount.toNat + (count - 1) := by
  have hsix : securityBuiltinRoleCount.toNat = 6 := rfl
  intro bit hbit
  rw [maskRoles_renumbered hindex] at hbit
  rcases hbit with ⟨hlt, -⟩ | ⟨-, hnext⟩
  · omega
  · have := h (bit + 1) hnext
    omega

end Masks

section Deletion

variable {p q : SecurityDirectoryPayload} {human : HumanRecord} {index : Nat}

theorem humanValid_renumbered (hp : p.Valid) (hindex : index < p.customRoleCount.toNat)
    (hcount : q.customRoleCount.toNat = p.customRoleCount.toNat - 1)
    (h : p.humanValid human = true) : q.humanValid (human.renumbered index) = true := by
  have hten : index < 10 := Nat.lt_of_lt_of_le hindex hp.roleCount
  obtain ⟨hrange, hlevel, hbit⟩ := humanValid_mask hp h
  rw [MaskInRange, roleEntries_length hp] at hrange
  have hbit' := level_mem_renumbered hten hlevel hbit
  unfold SecurityDirectoryPayload.humanValid at h ⊢
  rw [Bool.and_eq_true, Bool.and_eq_true, decide_eq_true_eq, decide_eq_true_eq] at h ⊢
  obtain ⟨⟨hvalid, -⟩, -⟩ := h
  refine ⟨⟨?_, ?_⟩, ?_⟩
  · rwa [valid_renumbered (ne_zero_of_mem hbit) (ne_zero_of_mem hbit')]
  · rw [allowedRoles_iff, hcount]
    exact renumbered_inRange hten hindex hrange
  · show renumberedMask index human.roleMask &&& 1 <<< human.level.toUInt16 ≠ 0
    rw [toUInt16_toNat]
    exact of_decide_eq_true ((hasRole_iff (by omega)).mpr hbit')

/-- What the roles of a renumbered mask add up to. -/
theorem addGrants_renumbered (hindex : index < 10) {roles : List RoleRecord} {mask : UInt16}
    (hfree : index + 6 ∉ maskRoles mask) {grants grants' : List RoleGrant}
    (h : grantsOf roles (roleBits mask) = some grants)
    (h' : grantsOf (roles.eraseIdx index) (roleBits (renumberedMask index mask)) = some grants')
    (f : RoleGrant → PermissionSet) (start : PermissionSet) :
    addGrants f start grants' = addGrants f start grants := by
  apply caps_injective
  rw [caps_grants h, caps_grants h', roleCaps_erased hindex f hfree]

/-- A human's permissions, and the principal of a login, under the roles that are left. -/
theorem meaning_renumbered (hp : p.Valid) (hq : q.Valid) (hindex : index < 10)
    (hroles : q.roleEntries = p.roleEntries.eraseIdx index) (h : p.humanValid human = true)
    (h' : q.humanValid (human.renumbered index) = true) (hfree : index + 6 ∉ maskRoles human.roleMask) :
    humanPermissions q (human.renumbered index) = humanPermissions p human ∧
      ∀ epoch, buildHumanPrincipal (human.renumbered index) q epoch = buildHumanPrincipal human p epoch := by
  obtain ⟨hrange, -, hbit⟩ := humanValid_mask hp h
  obtain ⟨hrange', -, hbit'⟩ := humanValid_mask hq h'
  obtain ⟨grants, hgrants⟩ := hrange.grants
  obtain ⟨grants', hgrants'⟩ := hrange'.grants
  have hsame := addGrants_renumbered hindex hfree hgrants (hroles ▸ hgrants')
  have hvalid := valid_renumbered (ne_zero_of_mem hbit) (ne_zero_of_mem hbit')
  constructor
  · unfold humanPermissions
    rw [hgrants, hgrants']
    exact hsame RoleGrant.permissions human.directPermissions
  · intro epoch
    unfold buildHumanPrincipal
    rw [hgrants, hgrants', hvalid]
    dsimp only [HumanRecord.renumbered]
    rw [hsame, hsame]
    rfl

/-- What `argus_security_admin_delete_role` commits. -/
def withoutRole (p : SecurityDirectoryPayload) (i : Fin 10) : SecurityDirectoryPayload :=
  { p with
    customRoles := Packed.eraseShift .zero p.customRoles p.customRoleCount.toNat i
    customRoleCount := p.customRoleCount - 1
    humans := Packed.mapEntries (HumanRecord.renumbered i.val) p.humans p.humanCount.toNat }

theorem withoutRole_roles (hp : p.Valid) {i : Fin 10} (hi : i.val < p.customRoleCount.toNat) :
    (withoutRole p i).roleEntries = p.roleEntries.eraseIdx i.val := by
  unfold SecurityDirectoryPayload.roleEntries withoutRole
  dsimp only
  rw [pred_toNat (by omega)]
  exact Packed.entries_eraseShift hi hp.roleCount

theorem withoutRole_humans (hp : p.Valid) (i : Fin 10) :
    (withoutRole p i).humanEntries = p.humanEntries.map (HumanRecord.renumbered i.val) :=
  Packed.entries_mapEntries hp.humanCount

theorem withoutRole_valid (hp : p.Valid) {i : Fin 10} (hi : i.val < p.customRoleCount.toNat) :
    (withoutRole p i).Valid := by
  have hcount : (withoutRole p i).customRoleCount.toNat = p.customRoleCount.toNat - 1 :=
    pred_toNat (by omega)
  refine ⟨hp.header, ?_, hp.humanCount, ?_, ?_, ?_, ?_, ?_, ?_, ?_⟩
  · rw [hcount]
    have := hp.roleCount
    omega
  · intro role hrole
    rw [withoutRole_roles hp hi] at hrole
    exact hp.roles role (List.mem_of_mem_eraseIdx hrole)
  · rw [hcount]
    exact hp.rolesKeyed.eraseShift hi hp.roleCount
  · rw [hcount]
    exact Packed.zeroTail_eraseShift hp.roleTail hi
  · intro human hhuman
    rw [withoutRole_humans hp] at hhuman
    obtain ⟨old, hold, rfl⟩ := List.mem_map.mp hhuman
    exact humanValid_renumbered hp hi hcount (hp.humans old hold)
  · exact hp.humansKeyed.mapEntries hp.humanCount (HumanRecord.renumbered_id i.val)
  · exact hp.loginsKeyed.mapEntries hp.humanCount fun _ => rfl
  · exact Packed.zeroTail_mapEntries hp.humanTail

/-- A role that no human holds is found under its identifier and taken out. -/
theorem adminDeleteRole_eq {s : HumanSnapshot} (hs : s.payload.Valid) {actor : AuthorizationPrincipal}
    (hactor : principalValid actor = true)
    (hrequire : authorizationRequire actor permissionManageRoles = .allow) {i : Fin 10}
    (hi : i.val < s.payload.customRoleCount.toNat)
    (hfree : ∀ human ∈ s.payload.humanEntries,
      hasRole human.roleMask (i.val + securityBuiltinRoleCount.toNat) = false) :
    adminDeleteRole actor s.payload.customRoles[i].id s = .ok (withoutRole s.payload i) := by
  have hallowed : ¬ (¬ principalValid actor ∨ authorizationRequire actor permissionManageRoles ≠ .allow) := by
    rw [not_or, not_not, not_not]
    exact ⟨hactor, hrequire⟩
  have hnone : ¬ (s.payload.humanEntries.any fun human =>
      hasRole human.roleMask (i.val + securityBuiltinRoleCount.toNat)) = true := by
    rw [List.any_eq_true]
    rintro ⟨human, hmem, hholds⟩
    rw [hfree human hmem] at hholds
    cases hholds
  unfold adminDeleteRole
  rw [if_neg hallowed, Packed.find?_key hs.rolesKeyed hi]
  dsimp only
  rw [if_neg hnone]
  rfl

/-- **Deletion.**  A role no human holds is deleted: the payload to commit is valid, has the
other roles in their order and the same humans with their masks renumbered, and each human
has the same permissions, and the same principal at login, as before. -/
theorem delete_role_preserves {s : HumanSnapshot} (hs : s.payload.valid = true)
    {actor : AuthorizationPrincipal} (hactor : principalValid actor = true)
    (hrequire : authorizationRequire actor permissionManageRoles = .allow) {role : RoleRecord}
    (hrole : s.payload.roleEntries[index]? = some role)
    (hfree : ∀ human ∈ s.payload.humanEntries,
      hasRole human.roleMask (index + securityBuiltinRoleCount.toNat) = false) :
    ∃ p, adminDeleteRole actor role.id s = .ok p ∧ p.valid = true ∧
      p.roleEntries = s.payload.roleEntries.filter (fun other => other.id ≠ role.id) ∧
      p.humanEntries = s.payload.humanEntries.map (HumanRecord.renumbered index) ∧
      ∀ human ∈ s.payload.humanEntries,
        humanPermissions p (human.renumbered index) = humanPermissions s.payload human ∧
        ∀ epoch, buildHumanPrincipal (human.renumbered index) p epoch =
          buildHumanPrincipal human s.payload epoch := by
  rw [SecurityDirectoryPayload.valid_iff] at hs
  obtain ⟨hlt, -⟩ := List.getElem?_eq_some_iff.mp hrole
  rw [roleEntries_length hs] at hlt
  have hten : index < 10 := Nat.lt_of_lt_of_le hlt hs.roleCount
  obtain ⟨i, rfl⟩ : ∃ i : Fin 10, i.val = index := ⟨⟨index, hten⟩, rfl⟩
  obtain rfl : s.payload.customRoles[i] = role :=
    Option.some.inj ((Packed.getElem_entries hlt).symm.trans hrole)
  have hq := withoutRole_valid hs hlt
  have hroles := withoutRole_roles hs hlt
  have hhumans := withoutRole_humans hs i
  refine ⟨withoutRole s.payload i, adminDeleteRole_eq hs hactor hrequire hlt hfree,
    SecurityDirectoryPayload.valid_iff.mpr hq, ?_, hhumans, fun human hmem => ?_⟩
  · rw [hroles]
    exact Packed.eraseIdx_eq_filter hs.rolesKeyed hrole
  · refine meaning_renumbered hs hq hten hroles (hs.humans human hmem) (hq.humans _ ?_) fun hbit => ?_
    · rw [hhumans]
      exact List.mem_map_of_mem hmem
    · have hbound : i.val + securityBuiltinRoleCount.toNat < 16 := by
        show i.val + 6 < 16
        omega
      have hholds := (hasRole_iff hbound).mpr hbit
      rw [hfree human hmem] at hholds
      cases hholds

/-- Ten roles, `a` to `j`; the only human has the last one, bit 15. -/
def tenRoles : HumanSnapshot where
  payload := { securityDirectory.empty with
    customRoleCount := 10
    humanCount := 1
    customRoles := .ofFn fun i =>
      createdRole [0x61 + i.val.toUInt8] .viewer permissionViewStatus permissionViewStatus
    humans := Vector.set (.replicate 16 .zero) 0
      { createdHuman (asciiBytes "kim") (asciiBytes "kim") (asciiBytes "Kim") (asciiBytes "site") .viewer 0
          someVerifier ⟨securityDirectory.empty, 1⟩ with roleMask := 0x8010 } }
  generation := 1

theorem delete_role_preserves_ten :
    ∃ p, adminDeleteRole (consolePrincipal 1 1) (asciiBytes "d") tenRoles = .ok p ∧ p.valid = true := by
  have hrole : tenRoles.payload.roleEntries[3]? =
      some (createdRole (asciiBytes "d") .viewer permissionViewStatus permissionViewStatus) := by
    decide +kernel
  have hid : (createdRole (asciiBytes "d") .viewer permissionViewStatus permissionViewStatus).id =
      asciiBytes "d" := by decide +kernel
  obtain ⟨p, hdelete, hvalid, -⟩ := @delete_role_preserves 3 tenRoles (by decide +kernel)
    (consolePrincipal 1 1) (by decide +kernel) (by decide +kernel) _ hrole (by decide +kernel)
  rw [hid] at hdelete
  exact ⟨p, hdelete, hvalid⟩

end Deletion

end Argus
