import ArgusPump.HumanAccounts

/-!
# The last administrator

An operation that takes the last enabled administrator's rights away locks every human out of
the administration of humans.  `argus_security_admin_set_enabled` and `_delete_human` ask
`argus_security_admin_removal_would_lock_out` first; `_assign_custom_roles` does not, and
rights may come from a custom role.

    an administrator stays ↔ no assignment takes the last one's rights  (human_lockout)
-/

namespace Argus

open Interact HumanOp

/-! ## Administrators -/

/-- Some enabled human may manage users. -/
def hasAdmin (payload : SecurityDirectoryPayload) : Bool :=
  payload.humanEntries.any (isEnabledHumanAdmin payload)

def HumanAccount.isAdmin (account : HumanAccount) : Bool :=
  account.usable && account.permissions &&& permissionManageUsers ≠ 0

theorem isAdmin_account (payload : SecurityDirectoryPayload) (human : HumanRecord) :
    (payload.account human).isAdmin = isEnabledHumanAdmin payload human := rfl

/-- The count of the one entry with a property. -/
theorem countP_eq_one_iff {α : Type} {l : List α} (hl : l.Nodup) {b : α → Bool} {x : α} (hx : x ∈ l)
    (hb : b x = true) : l.countP b = 1 ↔ ∀ y ∈ l, b y = true → y = x := by
  have hmem : x ∈ l.filter b := List.mem_filter.mpr ⟨hx, hb⟩
  have hnodup : (l.filter b).Nodup := hl.filter b
  rw [List.countP_eq_length_filter, List.length_eq_one_iff]
  constructor
  · rintro ⟨a, ha⟩ y hy hby
    have hy' : y ∈ l.filter b := List.mem_filter.mpr ⟨hy, hby⟩
    rw [ha, List.mem_singleton] at hmem hy'
    rw [hy', hmem]
  · intro hall
    have hsame : ∀ y ∈ l.filter b, y = x := fun y hy =>
      hall y (List.mem_filter.mp hy).1 (List.mem_filter.mp hy).2
    rw [List.eq_replicate_of_mem hsame] at hnodup hmem ⊢
    have hle := List.nodup_replicate.mp hnodup
    have hne := List.mem_replicate.mp hmem
    exact ⟨x, congrArg (List.replicate · x) (by omega : _ = 1)⟩

section Step

variable {s : HumanSnapshot} {p q : SecurityDirectoryPayload}

theorem hasAdmin_iff (hp : p.Valid) :
    hasAdmin p = true ↔ ∃ id account, p.accountOf id = some account ∧ account.isAdmin = true := by
  unfold hasAdmin
  rw [List.any_eq_true]
  constructor
  · rintro ⟨human, hmem, hadmin⟩
    exact ⟨human.id, p.account human, hp.accountOf_of_mem hmem, hadmin⟩
  · rintro ⟨id, account, hid, hadmin⟩
    obtain ⟨human, hfind, rfl⟩ := Option.map_eq_some_iff.mp hid
    exact ⟨human, (hp.find_iff.mp hfind).1, hadmin⟩

theorem locksOut_iff (hp : p.Valid) {r : HumanRecord} (hr : r ∈ p.humanEntries) :
    LocksOut p r ↔ isEnabledHumanAdmin p r = true ∧
      ∀ human ∈ p.humanEntries, isEnabledHumanAdmin p human = true → human = r :=
  and_congr_right fun hadmin => countP_eq_one_iff hp.humansKeyed.nodup hr hadmin

/-- **One record put**: an administrator stays unless the record is the last one's and the new
one's is none. -/
theorem HumanOp.Puts.hasAdmin {k : List UInt8} {old new : Option HumanRecord} (h : Puts p q k old new)
    (hp : p.Valid) (hq : q.Valid) (hadmin : Argus.hasAdmin p = true) :
    Argus.hasAdmin q = true ↔
      ∀ r, old = some r → LocksOut p r → ∃ r', new = some r' ∧ isEnabledHumanAdmin p r' = true := by
  constructor
  · rintro hafter r rfl hlocks
    obtain ⟨hmem, rfl⟩ := hp.find_iff.mp h.old
    obtain ⟨-, honly⟩ := (locksOut_iff hp hmem).mp hlocks
    obtain ⟨id, account, hid, hisAdmin⟩ := (hasAdmin_iff hq).mp hafter
    rw [h.accountOf] at hid
    split at hid
    · obtain ⟨r', hnew, rfl⟩ := Option.map_eq_some_iff.mp hid
      exact ⟨r', hnew, hisAdmin⟩
    · next hne =>
      obtain ⟨human, hfind, rfl⟩ := Option.map_eq_some_iff.mp hid
      obtain ⟨hhuman, rfl⟩ := hp.find_iff.mp hfind
      exact absurd (congrArg HumanRecord.id (honly human hhuman hisAdmin)) hne
  · intro hkept
    have hkeeps {human : HumanRecord} (hhuman : human ∈ p.humanEntries)
        (hisAdmin : isEnabledHumanAdmin p human = true) (hne : human.id ≠ k) :
        Argus.hasAdmin q = true := by
      refine (hasAdmin_iff hq).mpr ⟨human.id, p.account human, ?_, hisAdmin⟩
      rw [h.accountOf, if_neg hne]
      exact hp.accountOf_of_mem hhuman
    obtain ⟨human, hhuman, hisAdmin⟩ := List.any_eq_true.mp hadmin
    by_cases hk : human.id = k
    · subst hk
      have hold : old = some human := h.old.symm.trans (hp.find_of_mem hhuman)
      by_cases hlocks : LocksOut p human
      · obtain ⟨r', hnew, hisAdmin'⟩ := hkept human hold hlocks
        refine (hasAdmin_iff hq).mpr ⟨human.id, p.account r', ?_, hisAdmin'⟩
        rw [h.accountOf, if_pos rfl, hnew]
        rfl
      · rw [locksOut_iff hp hhuman] at hlocks
        push Not at hlocks
        obtain ⟨other, hother, hotherAdmin, hne⟩ := hlocks hisAdmin
        refine hkeeps hother hotherAdmin fun hid => hne ?_
        exact hp.humansKeyed.eq_of_key hother hhuman hid
    · exact hkeeps hhuman hisAdmin hk

/-- The record, or the roles it is to have, let it manage users. -/
def ManagesUsers (payload : SecurityDirectoryPayload) (human : HumanRecord) (mask : UInt16) : Prop :=
  (human.directPermissions ||| levelPermissions (.ofCode human.level)) &&& permissionManageUsers ≠ 0 ∨
    ∃ (i : Nat) (role : RoleRecord), payload.roleEntries[i]? = some role ∧ hasRole mask i = true ∧
      role.permissions &&& permissionManageUsers ≠ 0

/-- An assignment of roles that goes through leaves the last administrator its rights. -/
def HumanMove.KeepsAdmin (m : HumanMove) : Prop :=
  ∀ actor identifier mask, m.ev = ⟨.assignCustomRoles actor identifier mask, espOk⟩ →
    ∀ human, m.pre.payload.find identifier = some human → LocksOut m.pre.payload human →
      ManagesUsers m.pre.payload human mask

theorem caps_permissionBit {n : Nat} (h : n < 64) : caps (permissionBit n.toUInt64) = {n} := by
  have hall : ∀ i : Fin 64, (permissionBit i.val.toUInt64).toBitVec = 1#64 <<< i.val := by decide
  unfold caps
  rw [hall ⟨n, h⟩, BitSet.bits_one_shiftLeft h]

theorem managesUsers_caps (permissions : PermissionSet) :
    permissions &&& permissionManageUsers ≠ 0 ↔ 6 ∈ caps permissions := by
  have hbit : caps permissionManageUsers = {6} := caps_permissionBit (n := 6) (by decide)
  rw [ne_eq, and_eq_zero_iff_caps, hbit, Set.disjoint_singleton_right, not_not]

theorem isEnabledHumanAdmin_iff {human : HumanRecord} :
    isEnabledHumanAdmin p human = true ↔
      (p.account human).usable = true ∧ 6 ∈ caps (humanPermissions p human) := by
  rw [← isAdmin_account, ← managesUsers_caps, HumanAccount.isAdmin, Bool.and_eq_true, decide_eq_true_eq]
  rfl

theorem isEnabledHumanAdmin_congr {a b : HumanRecord} (henabled : b.enabled = a.enabled)
    (hrevoked : b.revoked = a.revoked) (hmask : b.roleMask = a.roleMask)
    (hdirect : b.directPermissions = a.directPermissions) :
    isEnabledHumanAdmin p b = isEnabledHumanAdmin p a := by
  unfold isEnabledHumanAdmin
  rw [henabled, hrevoked, SecurityDirectoryPayload.humanPermissions_congr hmask hdirect]

theorem managesUsers_iff (hp : p.Valid) {r : HumanRecord} {mask : UInt16} :
    ManagesUsers p r mask ↔
      6 ∈ caps r.directPermissions ∪
        (caps (levelPermissions (.ofCode r.level)) ∪ customCaps p.roleEntries mask) := by
  unfold ManagesUsers
  rw [managesUsers_caps, caps_or, ← Set.union_assoc, Set.mem_union (b := customCaps _ _)]
  refine or_congr_right ?_
  constructor
  · rintro ⟨i, role, hrole, hbit, hmanages⟩
    obtain ⟨hlt, -⟩ := List.getElem?_eq_some_iff.mp hrole
    rw [roleEntries_length hp] at hlt
    have hle := hp.roleCount
    exact ⟨i, (hasRole_iff (by omega)).mp hbit, role, hrole, (managesUsers_caps _).mp hmanages⟩
  · rintro ⟨i, hi, role, hrole, hmanages⟩
    exact ⟨i, role, hrole, (hasRole_iff (BitSet.bits_lt hi)).mpr hi, (managesUsers_caps _).mpr hmanages⟩

/-- An assignment of roles. -/
theorem hasAdmin_assigned {t : HumanSnapshot} (hs : s.payload.Valid) (ht : t.payload.Valid)
    {actor : AuthorizationPrincipal} {old new : HumanRecord} {mask : UInt16}
    (hnew : new = { old with
      roleMask := 1 <<< old.level.toUInt16 ||| mask <<< securityBuiltinRoleCount.toUInt16 }.touched)
    (hputs : Puts s.payload t.payload old.id (some old) (some new)) :
    (∀ r, some old = some r → LocksOut s.payload r →
        ∃ r', some new = some r' ∧ isEnabledHumanAdmin s.payload r' = true) ↔
      HumanMove.KeepsAdmin ⟨s, ⟨.assignCustomRoles actor old.id mask, espOk⟩, t⟩ := by
  have husable : (s.payload.account new).usable = (s.payload.account old).usable := by rw [hnew]; rfl
  have hcaps := caps_reassigned hs (hputs.old_mem hs).1 hnew (hputs.maskInRange ht)
  clear hnew
  constructor
  · intro hkept actor' identifier mask' hev human hfind hlocks
    cases hev
    obtain rfl := Option.some.inj (hfind.symm.trans hputs.old)
    obtain ⟨r', hr', hadmin⟩ := hkept _ rfl hlocks
    cases hr'
    rw [managesUsers_iff hs, ← hcaps]
    exact (isEnabledHumanAdmin_iff.mp hadmin).2
  · intro hkeeps r hr hlocks
    cases hr
    refine ⟨_, rfl, isEnabledHumanAdmin_iff.mpr ⟨?_, ?_⟩⟩
    · rw [husable]
      exact (isEnabledHumanAdmin_iff.mp hlocks.1).1
    rw [hcaps]
    exact (managesUsers_iff hs).mp (hkeeps _ _ _ rfl _ hputs.old hlocks)

/-- **One step.** -/
theorem HumanMove.hasAdmin_iff {m : HumanMove} (h : HumanStep m.pre m.ev m.post)
    (hs : m.pre.payload.Valid) (hadmin : hasAdmin m.pre.payload = true) :
    hasAdmin m.post.payload = true ↔ m.KeepsAdmin := by
  obtain ⟨s, ⟨op, err⟩, t⟩ := m
  dsimp only at h hs hadmin ⊢
  rcases h.cases hs with ⟨herr, rfl⟩ | ⟨rfl, -, hp, heffect⟩
  · refine iff_of_true hadmin fun actor identifier mask hev => ?_
    exact absurd (congrArg HumanCall.err hev) herr
  · dsimp only at heffect
    rcases heffect.accounts hs hp with ⟨k, old, new, hrewrites, hputs⟩ | ⟨hnone, hsame⟩
    · rw [hputs.hasAdmin hs hp hadmin]
      cases hrewrites with
      | created _ _ _ => exact iff_of_true nofun nofun
      | deleted _ hkept =>
        refine iff_of_true (fun r hr hlocks => ?_) nofun
        cases hr
        exact absurd hlocks hkept
      | @changed _ old new hchanges =>
        cases hchanges with
        | enabled _ =>
          refine iff_of_true (fun r hr hlocks => ?_) nofun
          cases hr
          exact ⟨_, rfl, isEnabledHumanAdmin_iff.mpr ⟨rfl, (isEnabledHumanAdmin_iff.mp hlocks.1).2⟩⟩
        | disabled _ hkept =>
          refine iff_of_true (fun r hr hlocks => ?_) nofun
          cases hr
          exact absurd hlocks hkept
        | roles _ _ _ => exact hasAdmin_assigned hs hp rfl hputs
        | _ =>
          refine iff_of_true (fun r hr hlocks => ?_) nofun
          cases hr
          refine ⟨_, rfl, Eq.trans ?_ hlocks.1⟩
          exact isEnabledHumanAdmin_congr rfl rfl rfl rfl
    · refine iff_of_true ?_ fun actor identifier mask hev => ?_
      · obtain ⟨id, account, hid, hisAdmin⟩ := (Argus.hasAdmin_iff hs).mp hadmin
        exact (Argus.hasAdmin_iff hp).mpr ⟨id, account, (hsame id).trans hid, hisAdmin⟩
      · cases hev
        cases hnone

end Step

/-! ## Runs -/

/-- **No lockout over runs.** -/
theorem human_lockout {s : HumanSnapshot} {ms : List HumanMove} (h : IsRun HumanStep s ms)
    (hs : s.payload.Valid) :
    (∀ l k, ms = l ++ k → hasAdmin (final s l).payload = true →
        ∀ m ∈ k, hasAdmin m.post.payload = true) ↔
      ∀ m ∈ ms, m.KeepsAdmin := by
  have hvalid := (human_run_valid h hs).1
  constructor
  · intro hall m hm
    obtain ⟨l, r, rfl, hl, hpre, -⟩ := h.split_of_mem hm
    cases hadmin : hasAdmin m.pre.payload with
    | true =>
      have hpost := hall l (m :: r) rfl (by rw [hpre]; exact hadmin) m List.mem_cons_self
      exact (HumanMove.hasAdmin_iff (h.step_of_mem m hm) (hvalid m hm).1 hadmin).mp hpost
    | false =>
      intro actor identifier mask hev human hfind hlocks
      have hmem := ((hvalid m hm).1.find_iff.mp hfind).1
      have hsome : hasAdmin m.pre.payload = true := List.any_eq_true.mpr ⟨human, hmem, hlocks.1⟩
      rw [hadmin] at hsome
      cases hsome
  · rintro hkeeps l k rfl hadmin
    obtain ⟨hl, hk⟩ := (isRun_append s l k).mp h
    have hinv := hk.inv_of (I := fun t => t.payload.Valid ∧ hasAdmin t.payload = true)
      (K := HumanMove.KeepsAdmin) ⟨(human_run_valid hl hs).2, hadmin⟩
      (fun m hm => hkeeps m (List.mem_append_right l hm)) ?_
    · exact fun m hm => (hinv.1 m hm).2.2
    · rintro m ⟨hpre, hadmin⟩ hstep hkeep
      exact ⟨hstep.valid hpre, (HumanMove.hasAdmin_iff hstep hpre hadmin).mpr hkeep⟩

/-- The console makes an administrator and disables it. -/
def disableAdmin : List HumanOp :=
  [createHumanBy (consolePrincipal 1 1) "admin" .clientAdmin,
    .setEnabled (consolePrincipal 1 1) (asciiBytes "admin") false]

/-- The only administrator cannot be disabled. -/
theorem human_lockout_disabled :
    ∃ ms : List HumanMove, IsRun HumanStep freshHumans ms ∧
      (∃ m ∈ ms, m.ev.err = espErrInvalidState ∧ hasAdmin m.pre.payload = true) ∧
      ∀ l k, ms = l ++ k → hasAdmin (final freshHumans l).payload = true →
        ∀ m ∈ k, hasAdmin m.post.payload = true := by
  have hrun := humanServe_run freshHumans disableAdmin
  have hrefused : (traceWhile humanServe freshHumans disableAdmin).any
      (fun m => m.ev.err = espErrInvalidState && hasAdmin m.pre.payload) = true := by decide +kernel
  have hops (m : HumanMove) (hm : m ∈ traceWhile humanServe freshHumans disableAdmin) :
      m.ev.op ∈ disableAdmin := humanOp_mem_of_serve hm
  generalize traceWhile humanServe freshHumans disableAdmin = ms at hrun hrefused hops
  obtain ⟨m, hm, hbad⟩ := List.any_eq_true.mp hrefused
  rw [Bool.and_eq_true, decide_eq_true_eq] at hbad
  refine ⟨ms, hrun, ⟨m, hm, hbad⟩, (human_lockout hrun freshHumans_valid).mpr ?_⟩
  intro n hn actor identifier mask hev
  have hop := hops n hn
  rw [hev] at hop
  rcases List.mem_cons.mp hop with hcreate | hdisable
  · cases hcreate
  · cases List.mem_singleton.mp hdisable

/-- The console makes a viewer an administrator by a custom role, and takes the role away. -/
def reassignViewer : List HumanOp :=
  [.createRole (consolePrincipal 1 1) (asciiBytes "users") .viewer permissionManageUsers 0,
    createHumanBy (consolePrincipal 1 1) "viewer" .viewer,
    .assignCustomRoles (consolePrincipal 1 1) (asciiBytes "viewer") 1,
    .assignCustomRoles (consolePrincipal 1 1) (asciiBytes "viewer") 0]

/-- The only administrator loses its role. -/
theorem reassigned_locks_out :
    ¬ ∀ (s : HumanSnapshot) (ms : List HumanMove), s.payload.Valid → IsRun HumanStep s ms →
      ∀ l k, ms = l ++ k → hasAdmin (final s l).payload = true →
        ∀ m ∈ k, hasAdmin m.post.payload = true := by
  intro h
  have hrun := humanServe_run freshHumans reassignViewer
  have hbad : (hasAdmin (final freshHumans ((traceWhile humanServe freshHumans reassignViewer).take 3)).payload &&
      ((traceWhile humanServe freshHumans reassignViewer).drop 3).any
        fun m => ¬ hasAdmin m.post.payload) = true := by decide +kernel
  generalize traceWhile humanServe freshHumans reassignViewer = ms at hrun hbad
  obtain ⟨hadmin, hlost⟩ := Bool.and_eq_true_iff.mp hbad
  obtain ⟨m, hm, hlocked⟩ := List.any_eq_true.mp hlost
  have hstill := h _ ms freshHumans_valid hrun _ _ (List.take_append_drop 3 ms).symm hadmin m hm
  exact of_decide_eq_true hlocked hstill

end Argus
