import ArgusPump.DirectoryCommit
import ArgusPump.SecurityAdmin

/-!
# Accounts of humans

What the directory says of a human, less the texts, the password and the numbers of the
roles.  An operation on a human rewrites one account; one on a role rewrites none, though it
may renumber every mask.

    an operation goes through → it rewrites one account, or all stay  (HumanOp.Effect.accounts)
    no two commits share a snapshot, so the operations are made one after another, each of
      the current one                                                 (HumanStep)
-/

namespace Argus

open Interact

/-! ## Accounts -/

structure HumanAccount where
  level : SecurityLevel
  usable : Bool
  credentialVersion : UInt32
  recordSecurityEpoch : UInt32
  permissions : PermissionSet
  /-- What its roles let it delegate. -/
  delegable : Set Nat

namespace SecurityDirectoryPayload

/-- The account of a record. -/
def account (payload : SecurityDirectoryPayload) (human : HumanRecord) : HumanAccount where
  level := .ofCode human.level
  usable := human.enabled ≠ 0 && human.revoked = 0
  credentialVersion := human.credentialVersion
  recordSecurityEpoch := human.recordSecurityEpoch
  permissions := humanPermissions payload human
  delegable := roleCaps RoleGrant.delegable payload.roleEntries human.roleMask

/-- The account under an identifier. -/
def accountOf (payload : SecurityDirectoryPayload) (identifier : List UInt8) : Option HumanAccount :=
  (payload.find identifier).map payload.account

variable {p q : SecurityDirectoryPayload} {identifier : List UInt8}

theorem Valid.find_iff (hp : p.Valid) {human : HumanRecord} :
    p.find identifier = some human ↔ human ∈ p.humanEntries ∧ human.id = identifier :=
  Packed.get?_eq_some hp.humansKeyed

theorem Valid.find_of_mem (hp : p.Valid) {human : HumanRecord} (h : human ∈ p.humanEntries) :
    p.find human.id = some human :=
  hp.find_iff.mpr ⟨h, rfl⟩

theorem accountOf_of_find {human : HumanRecord} (h : p.find identifier = some human) :
    p.accountOf identifier = some (p.account human) := by
  unfold accountOf
  rw [h]
  rfl

theorem Valid.accountOf_of_mem (hp : p.Valid) {human : HumanRecord} (h : human ∈ p.humanEntries) :
    p.accountOf human.id = some (p.account human) :=
  accountOf_of_find (hp.find_of_mem h)

theorem Valid.maskInRange (hp : p.Valid) {human : HumanRecord} (h : human ∈ p.humanEntries) :
    MaskInRange p.roleEntries human.roleMask :=
  (humanValid_mask hp (hp.humans human h)).1

theorem account_of_roles (h : q.roleEntries = p.roleEntries) (human : HumanRecord) :
    q.account human = p.account human := by
  unfold account humanPermissions
  rw [h]

theorem humanPermissions_congr {a b : HumanRecord} (hmask : b.roleMask = a.roleMask)
    (hdirect : b.directPermissions = a.directPermissions) :
    humanPermissions p b = humanPermissions p a := by
  unfold humanPermissions
  rw [hmask, hdirect]

theorem account_congr {a b : HumanRecord} (hlevel : b.level = a.level) (henabled : b.enabled = a.enabled)
    (hrevoked : b.revoked = a.revoked) (hversion : b.credentialVersion = a.credentialVersion)
    (hepoch : b.recordSecurityEpoch = a.recordSecurityEpoch) (hmask : b.roleMask = a.roleMask)
    (hdirect : b.directPermissions = a.directPermissions) : p.account b = p.account a := by
  unfold account
  rw [hlevel, henabled, hrevoked, hversion, hepoch, hmask, humanPermissions_congr hmask hdirect]

/-- A mask that names the same grants makes the same account. -/
theorem account_of_caps {human : HumanRecord} {mask : UInt16}
    (hhuman : MaskInRange p.roleEntries human.roleMask) (hmask : MaskInRange q.roleEntries mask)
    (hcaps : ∀ f, roleCaps f q.roleEntries mask = roleCaps f p.roleEntries human.roleMask) :
    q.account { human with roleMask := mask } = p.account human := by
  have hnew : MaskInRange q.roleEntries ({ human with roleMask := mask } : HumanRecord).roleMask := hmask
  have hpermissions : humanPermissions q { human with roleMask := mask } = humanPermissions p human := by
    apply caps_injective
    rw [caps_humanPermissions hhuman, caps_humanPermissions hnew, hcaps]
  unfold account
  rw [hpermissions, hcaps]

end SecurityDirectoryPayload

namespace HumanOp

variable {s : HumanSnapshot} {p q : SecurityDirectoryPayload} {op : HumanOp}

/-- The accounts after one record is put. -/
theorem Puts.accountOf {k : List UInt8} {old new : Option HumanRecord} (h : Puts p q k old new)
    (id : List UInt8) : q.accountOf id = if id = k then new.map p.account else p.accountOf id := by
  have hsame : q.account = p.account := funext (SecurityDirectoryPayload.account_of_roles h.roles)
  unfold SecurityDirectoryPayload.accountOf
  rw [h.find id, hsame]
  split <;> rfl

theorem Puts.accountOf_self {k : List UInt8} {old new : Option HumanRecord} (h : Puts p q k old new) :
    p.accountOf k = old.map p.account ∧ q.accountOf k = new.map p.account := by
  refine ⟨?_, by rw [h.accountOf, if_pos rfl]⟩
  unfold SecurityDirectoryPayload.accountOf
  rw [h.old]

theorem Puts.old_mem {k : List UInt8} {old : HumanRecord} {new : Option HumanRecord}
    (h : Puts p q k (some old) new) (hp : p.Valid) : old ∈ p.humanEntries ∧ old.id = k :=
  hp.find_iff.mp h.old

/-- The mask of the record that is put names roles there are. -/
theorem Puts.maskInRange {k : List UInt8} {old : Option HumanRecord} {new : HumanRecord}
    (h : Puts p q k old (some new)) (hq : q.Valid) : MaskInRange p.roleEntries new.roleMask := by
  have hfind : q.find k = some new := by rw [h.find, if_pos rfl]
  rw [← h.roles]
  exact hq.maskInRange (hq.find_iff.mp hfind).1

/-- A new role leaves all accounts. -/
theorem accountOf_roleCreated (hp : p.Valid) (hq : q.Valid) {role : RoleRecord}
    (hroles : q.roleEntries = p.roleEntries ++ [role]) (hfind : ∀ id, q.find id = p.find id)
    (id : List UInt8) : q.accountOf id = p.accountOf id := by
  unfold SecurityDirectoryPayload.accountOf
  rw [hfind id]
  cases hid : p.find id with
  | none => rfl
  | some human =>
    obtain ⟨hmem, -⟩ := hp.find_iff.mp hid
    obtain ⟨hmem', -⟩ := hq.find_iff.mp ((hfind id).trans hid)
    refine congrArg some (SecurityDirectoryPayload.account_of_caps (hp.maskInRange hmem)
      (hq.maskInRange hmem') fun f => ?_)
    rw [hroles, roleCaps_append (hp.maskInRange hmem)]

/-- A role that nobody has is deleted, and all accounts stay. -/
theorem accountOf_roleDeleted (hp : p.Valid) (hq : q.Valid) {index : Nat} (hindex : index < 10)
    (hunused : ∀ human ∈ p.humanEntries, index + 6 ∉ maskRoles human.roleMask)
    (hroles : q.roleEntries = p.roleEntries.eraseIdx index)
    (hfind : ∀ id, q.find id = (p.find id).map (HumanRecord.renumbered index)) (id : List UInt8) :
    q.accountOf id = p.accountOf id := by
  have hid' := hfind id
  unfold SecurityDirectoryPayload.accountOf
  cases hid : p.find id with
  | none =>
    rw [hid'.trans (by rw [hid])]
    rfl
  | some human =>
    rw [hid] at hid'
    obtain ⟨hmem, -⟩ := hp.find_iff.mp hid
    obtain ⟨hmem', -⟩ := hq.find_iff.mp hid'
    rw [hid']
    refine congrArg some (SecurityDirectoryPayload.account_of_caps (hp.maskInRange hmem)
      (hq.maskInRange hmem') fun f => ?_)
    rw [hroles]
    exact roleCaps_erased hindex f (hunused human hmem)

theorem caps_customRolePermissions (hp : p.Valid) (mask : UInt16) :
    caps (customRolePermissions p mask) = customCaps p.roleEntries mask := by
  have hlen := roleEntries_length hp
  have hcount := hp.roleCount
  unfold customRolePermissions
  rw [caps_foldl_roles, caps_zero, Set.empty_union]
  ext i
  constructor
  · rintro ⟨⟨role, j⟩, hmem, hi⟩
    obtain ⟨hzip, hbit⟩ := List.mem_filter.mp hmem
    have hget := List.mem_zipIdx_iff_getElem?.mp hzip
    obtain ⟨hlt, -⟩ := List.getElem?_eq_some_iff.mp hget
    exact ⟨j, (hasRole_iff (by dsimp only at hlt; omega)).mp hbit, role, hget, hi⟩
  · rintro ⟨j, hj, role, hget, hi⟩
    refine ⟨(role, j), List.mem_filter.mpr ⟨List.mem_zipIdx_iff_getElem?.mpr hget, ?_⟩, hi⟩
    exact (hasRole_iff (BitSet.bits_lt hj)).mpr hj

/-- The permissions of a record whose custom roles are those of `mask`. -/
theorem caps_assigned (hp : p.Valid) {human : HumanRecord} {mask : UInt16} (hlevel : human.level.toNat ≤ 4)
    (hmask : human.roleMask =
      1 <<< human.level.toUInt16 ||| mask <<< securityBuiltinRoleCount.toUInt16)
    (hrange : MaskInRange p.roleEntries human.roleMask) :
    caps (humanPermissions p human) =
      caps human.directPermissions ∪
        (caps (levelPermissions (.ofCode human.level)) ∪ customCaps p.roleEntries mask) := by
  have hroles : p.roleEntries.length ≤ 10 := (roleEntries_length hp).trans_le hp.roleCount
  rw [caps_humanPermissions hrange, hmask, roleCaps_assigned hroles hlevel]

theorem level_le (hp : p.Valid) {human : HumanRecord} (h : human ∈ p.humanEntries) :
    human.level.toNat ≤ 4 :=
  (humanValid_mask hp (hp.humans human h)).2.1

/-- The permissions of a human who is assigned roles. -/
theorem caps_reassigned (hp : p.Valid) {old new : HumanRecord} {mask : UInt16}
    (hold : old ∈ p.humanEntries)
    (hnew : new = { old with
      roleMask := 1 <<< old.level.toUInt16 ||| mask <<< securityBuiltinRoleCount.toUInt16 }.touched)
    (hrange : MaskInRange p.roleEntries new.roleMask) :
    caps (humanPermissions p new) =
      caps old.directPermissions ∪
        (caps (levelPermissions (.ofCode old.level)) ∪ customCaps p.roleEntries mask) := by
  have hlevel : new.level = old.level := by rw [hnew]; rfl
  have hdirect : new.directPermissions = old.directPermissions := by rw [hnew]; rfl
  have hmask : new.roleMask =
      1 <<< new.level.toUInt16 ||| mask <<< securityBuiltinRoleCount.toUInt16 := by
    rw [hlevel, hnew]
    rfl
  rw [caps_assigned hp (hlevel ▸ level_le hp hold) hmask hrange, hlevel, hdirect]

/-- **One account or none.** -/
theorem Effect.accounts (h : op.Effect s p) (hs : s.payload.Valid) (hp : p.Valid) :
    (∃ k old new, op.Rewrites s k old new ∧ Puts s.payload p k old new) ∨
      op.target? = none ∧ ∀ id, p.accountOf id = s.payload.accountOf id := by
  cases h with
  | human hrewrites hputs => exact .inl ⟨_, _, _, hrewrites, hputs⟩
  | roleCreated _ hroles hhumans hcount =>
    refine .inr ⟨rfl, accountOf_roleCreated hs hp hroles fun id => ?_⟩
    unfold SecurityDirectoryPayload.find
    rw [hhumans, hcount]
  | roleDeleted hindex hunused hroles hfind =>
    exact .inr ⟨rfl, accountOf_roleDeleted hs hp hindex hunused hroles hfind⟩

end HumanOp

/-! ## Runs -/

/-- A call of an operation and what it returns. -/
structure HumanCall where
  op : HumanOp
  err : EspErr

/-- The edit is refused, the commit is refused or fails, or the commit goes through. -/
inductive HumanStep : HumanSnapshot → HumanCall → HumanSnapshot → Prop
  | refused {s : HumanSnapshot} {op : HumanOp} {err : EspErr} : op.edit s = .error err →
      err ≠ espOk → HumanStep s ⟨op, err⟩ s
  | failed {s : HumanSnapshot} {op : HumanOp} {p : SecurityDirectoryPayload} {err : EspErr} :
      op.edit s = .ok p → err ≠ espOk → HumanStep s ⟨op, err⟩ s
  | committed {s : HumanSnapshot} {op : HumanOp} {p : SecurityDirectoryPayload} :
      op.edit s = .ok p → p.valid = true → HumanStep s ⟨op, espOk⟩ ⟨p, nextGeneration s.generation⟩

abbrev HumanMove := Move HumanSnapshot HumanCall

theorem HumanStep.cases {s t : HumanSnapshot} {call : HumanCall} (h : HumanStep s call t)
    (hs : s.payload.Valid) :
    call.err ≠ espOk ∧ t = s ∨
      call.err = espOk ∧ t.generation = nextGeneration s.generation ∧ t.payload.Valid ∧
        call.op.Effect s t.payload := by
  cases h with
  | refused _ herr => exact .inl ⟨herr, rfl⟩
  | failed _ herr => exact .inl ⟨herr, rfl⟩
  | committed hedit hvalid =>
    have hp := SecurityDirectoryPayload.valid_iff.mp hvalid
    exact .inr ⟨rfl, rfl, hp, HumanOp.effect hedit hs hp⟩

theorem HumanStep.valid {s t : HumanSnapshot} {call : HumanCall} (h : HumanStep s call t)
    (hs : s.payload.Valid) : t.payload.Valid := by
  rcases h.cases hs with ⟨-, rfl⟩ | ⟨-, -, hp, -⟩
  · exact hs
  · exact hp

theorem human_run_valid {s : HumanSnapshot} {ms : List HumanMove} (h : IsRun HumanStep s ms)
    (hs : s.payload.Valid) :
    (∀ m ∈ ms, m.pre.payload.Valid ∧ m.post.payload.Valid) ∧ (final s ms).payload.Valid :=
  h.inv (I := fun t => t.payload.Valid) hs fun _ hi hstep => hstep.valid hi

/-- A call whose commit goes through if the payload is valid. -/
def humanServe (s : HumanSnapshot) (op : HumanOp) : Option (HumanCall × HumanSnapshot) :=
  match op.edit s with
  | .error err => if err = espOk then none else some (⟨op, err⟩, s)
  | .ok p =>
    if p.valid then some (⟨op, espOk⟩, ⟨p, nextGeneration s.generation⟩)
    else some (⟨op, espErrInvalidState⟩, s)

theorem humanServe_step (s : HumanSnapshot) (op : HumanOp) (call : HumanCall) (t : HumanSnapshot)
    (h : humanServe s op = some (call, t)) : HumanStep s call t ∧ call.op = op := by
  unfold humanServe at h
  split at h
  · next err hedit =>
    split at h
    · cases h
    · next herr =>
      cases h
      exact ⟨.refused hedit herr, rfl⟩
  · next p hedit =>
    split at h
    · next hvalid =>
      cases h
      exact ⟨.committed hedit hvalid, rfl⟩
    · cases h
      exact ⟨.failed hedit (by decide), rfl⟩

theorem humanServe_run (s : HumanSnapshot) (ops : List HumanOp) :
    IsRun HumanStep s (traceWhile humanServe s ops) :=
  isRun_traceWhile (fun s op call t h => (humanServe_step s op call t h).1) s ops

theorem humanOp_mem_of_serve {s : HumanSnapshot} {ops : List HumanOp} {m : HumanMove}
    (h : m ∈ traceWhile humanServe s ops) : m.ev.op ∈ ops := by
  obtain ⟨op, hop, heq⟩ := exists_of_traceWhile (R := fun op call => call.op = op)
    (fun s op call t hserve => (humanServe_step s op call t hserve).2) h
  exact heq ▸ hop

/-- The directory after a first boot. -/
def freshHumans : HumanSnapshot := ⟨securityDirectory.empty, 1⟩

theorem freshHumans_accountOf (id : List UInt8) : freshHumans.payload.accountOf id = none := by
  have hnone : freshHumans.payload.find id = none := Packed.get?_eq_none.mpr fun _ hx => nomatch hx
  unfold SecurityDirectoryPayload.accountOf
  rw [hnone]
  rfl

theorem freshHumans_valid : freshHumans.payload.Valid :=
  SecurityDirectoryPayload.valid_iff.mp securityDirectory_empty_valid

/-- A new human of some level, in the scope of the site. -/
def createHumanBy (actor : AuthorizationPrincipal) (identifier : String) (level : SecurityLevel) : HumanOp :=
  .createHuman actor (asciiBytes identifier) (asciiBytes identifier) (asciiBytes identifier)
    (asciiBytes "site") level 0 (.replicate 12 0x41) (.ok someVerifier)

end Argus
