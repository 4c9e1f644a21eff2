import ArgusPump.HumanAccounts

/-!
# Delegation among humans

What an actor gives a human, or takes over with a human's password, is within what the actor
may delegate; only the right to manage client administrators goes from Argus personnel to a
client administrator besides.  Actors are the console, and humans as they were at some login.

    an operation that gives → within the actor's delegation            (HumanOp.Rewrites.within)
    any other operation     → nobody's permissions grow                (HumanStep.permissions)
    so nobody holds what the console may not delegate                  (human_no_escalation)
-/

namespace Argus

open Interact HumanOp

/-! ## What an actor may give -/

/-- What a human of a level may hold by the hand of an actor. -/
def mayHold (actor : AuthorizationPrincipal) (level : SecurityLevel) : Set Nat :=
  caps actor.delegablePermissions ∪
    {i | i ∈ caps permissionManageClientAdmins ∧ actor.level = .argusPersonnel ∧ level = .clientAdmin}

section Checks

variable {actor : AuthorizationPrincipal} {level : SecurityLevel} {scope : List UInt8}
  {requested : PermissionSet}

theorem authorizationDelegate_caps (h : authorizationDelegate actor level scope requested = .allow) :
    caps requested ⊆ caps actor.delegablePermissions := by
  unfold authorizationDelegate at h
  dsimp only at h
  split at h
  · next hdenied => exact absurd h hdenied
  · split at h
    · cases h
    · split at h
      · cases h
      · next hwithin =>
        simp only [not_or, not_not] at hwithin
        exact within_iff.mp hwithin.2.1

theorem targetAuthorized_caps {protectedIdentity : Bool}
    (h : targetAuthorized actor level scope protectedIdentity requested = espOk) :
    caps requested ⊆ mayHold actor level := by
  unfold targetAuthorized at h
  split at h
  · cases h
  · split at h
    · cases h
    · next hdelegate =>
      split at h
      · cases h
      · next hspecial =>
        simp only [not_and, not_not, not_or] at hdelegate hspecial
        intro i hi
        by_cases hclient : i ∈ caps permissionManageClientAdmins
        · have hne : requested &&& permissionManageClientAdmins ≠ 0 := by
            rw [ne_eq, and_eq_zero_iff_caps, Set.not_disjoint_iff]
            exact ⟨i, hi, hclient⟩
          exact .inr ⟨hclient, hspecial hne⟩
        · have hrest : i ∈ caps (requested &&& ~~~permissionManageClientAdmins) := by
            rw [caps_and_not]
            exact ⟨hi, hclient⟩
          have hne : requested &&& ~~~permissionManageClientAdmins ≠ 0 := by
            rw [ne_eq, eq_zero_iff_caps]
            exact Set.Nonempty.ne_empty ⟨i, hrest⟩
          exact .inl (authorizationDelegate_caps (hdelegate hne) hrest)

theorem humanAuthorized_caps {payload : SecurityDirectoryPayload} {human : HumanRecord}
    (h : humanAuthorized actor payload human = espOk) :
    caps (humanPermissions payload human) ⊆ mayHold actor (.ofCode human.level) :=
  targetAuthorized_caps h

theorem ofCode_code {level : SecurityLevel} : SecurityLevel.ofCode level.code = level := by
  cases level <;> rfl

theorem customCaps_zero (roles : List RoleRecord) : customCaps roles 0 = ∅ := by
  have hnone : maskRoles 0 = ∅ := BitSet.bits_zero
  unfold customCaps
  rw [hnone]
  simp

/-- The permissions of the level and those given directly are effective. -/
theorem own_subset_permissions {p : SecurityDirectoryPayload} (hp : p.Valid) {human : HumanRecord}
    (h : human ∈ p.humanEntries) :
    caps human.directPermissions ∪ caps (levelPermissions (.ofCode human.level)) ⊆
      caps (humanPermissions p human) := by
  obtain ⟨hrange, hle, hlevel⟩ := humanValid_mask hp (hp.humans human h)
  rw [caps_humanPermissions hrange]
  exact Set.union_subset_union_right _ fun i hi => ⟨_, hlevel, _, grantOf_level _ hle, hi⟩

end Checks

/-! ## One operation -/

namespace HumanOp

/-- The human an operation creates or enables, or gives roles or a password. -/
def gives? : HumanOp → Option (List UInt8)
  | .createHuman _ identifier _ _ _ _ _ _ _ => some (cString (strlcpy 37 identifier))
  | .setEnabled _ identifier true | .replacePassword _ identifier _ _
  | .assignCustomRoles _ identifier _ => some identifier
  | _ => none

/-- The human whose roles an operation sets. -/
def setsRoles? : HumanOp → Option (List UInt8)
  | .createHuman _ identifier _ _ _ _ _ _ _ => some (cString (strlcpy 37 identifier))
  | .assignCustomRoles _ identifier _ => some identifier
  | _ => none

theorem gives_target {op : HumanOp} {id : List UInt8} (h : op.gives? = some id) : op.target? = some id := by
  cases op with
  | setEnabled actor identifier enabled =>
    cases enabled with
    | true => exact h
    | false => cases h
  | createHuman actor identifier login displayName scope level direct password verifier => exact h
  | replacePassword actor identifier password verifier => exact h
  | assignCustomRoles actor identifier mask => exact h
  | _ => cases h

theorem setsRoles_gives {op : HumanOp} {id : List UInt8} (h : op.setsRoles? = some id) :
    op.gives? = some id := by
  cases op with
  | createHuman actor identifier login displayName scope level direct password verifier => exact h
  | assignCustomRoles actor identifier mask => exact h
  | _ => cases h

variable {s : HumanSnapshot} {p : SecurityDirectoryPayload} {op : HumanOp} {k : List UInt8}

/-- A new human has the permissions of its level and those asked for. -/
theorem caps_created {identifier login displayName scope : List UInt8} {level : SecurityLevel}
    {direct : PermissionSet} {verifier : PasswordVerifier} {new : HumanRecord} (hs : s.payload.Valid)
    (hnew : new = createdHuman identifier login displayName scope level direct verifier s)
    (hlevel : level.code ≤ SecurityLevel.viewer.code)
    (hrange : MaskInRange s.payload.roleEntries new.roleMask) :
    caps (humanPermissions s.payload new) = caps (requestedPermissions level direct) ∧
      .ofCode new.level = level := by
  have hcode : new.level = level.code := by rw [hnew]; rfl
  have hdirect : new.directPermissions = direct := by rw [hnew]; rfl
  have hmask : new.roleMask = 1 <<< new.level.toUInt16 ||| 0 <<< securityBuiltinRoleCount.toUInt16 := by
    rw [hcode, hnew]
    exact (UInt16.or_zero).symm
  have hle : new.level.toNat ≤ 4 := by
    rw [hcode]
    exact UInt8.le_iff_toNat_le.mp hlevel
  refine ⟨?_, by rw [hcode, ofCode_code]⟩
  rw [caps_assigned hs hle hmask hrange, customCaps_zero, Set.union_empty, hdirect, hcode, ofCode_code,
    requestedPermissions, caps_or, Set.union_comm]

/-- **What an operation gives is within the actor's delegation.** -/
theorem Rewrites.within {old new : Option HumanRecord} (h : op.Rewrites s k old new)
    (hputs : Puts s.payload p k old new) (hs : s.payload.Valid) (hp : p.Valid) {id : List UInt8}
    (hgives : op.gives? = some id) :
    ∃ human, p.find id = some human ∧
      caps (humanPermissions p human) ⊆ mayHold op.actor (.ofCode human.level) := by
  have hid : id = k := Option.some.inj ((gives_target hgives).symm.trans h.target)
  have hfind : p.find id = new := by rw [hputs.find, if_pos hid]
  have hsame (human : HumanRecord) : humanPermissions p human = humanPermissions s.payload human :=
    congrArg HumanAccount.permissions (SecurityDirectoryPayload.account_of_roles hputs.roles human)
  cases h with
  | created hnew hlevel hauth =>
    obtain ⟨hcaps, hlevel'⟩ := caps_created hs hnew hlevel (hputs.maskInRange hp)
    refine ⟨_, hfind, ?_⟩
    rw [hsame, hcaps, hlevel']
    exact targetAuthorized_caps hauth
  | deleted _ _ => cases hgives
  | @changed _ old new hchanges =>
    refine ⟨new, hfind, ?_⟩
    rw [hsame]
    cases hchanges with
    | enabled hauth => exact humanAuthorized_caps hauth
    | password hauth => exact humanAuthorized_caps hauth
    | @roles actor _ mask hauth _ hdelegate =>
      rw [caps_reassigned hs (hputs.old_mem hs).1 rfl (hputs.maskInRange hp), ← Set.union_assoc]
      refine Set.union_subset ?_ ?_
      · exact (own_subset_permissions hs (hputs.old_mem hs).1).trans (humanAuthorized_caps hauth)
      · rw [← caps_customRolePermissions hs]
        by_cases hzero : customRolePermissions s.payload mask = 0
        · rw [hzero, caps_zero]
          exact Set.empty_subset _
        · exact (authorizationDelegate_caps (hdelegate hzero)).trans Set.subset_union_left
    | _ => cases hgives

/-- An operation that does not set a human's roles leaves its permissions. -/
theorem Rewrites.permissions {old new : HumanRecord} (h : op.Rewrites s k (some old) (some new))
    (hroles : op.setsRoles? ≠ some k) :
    humanPermissions s.payload new = humanPermissions s.payload old := by
  cases h with
  | changed hchanges =>
    cases hchanges with
    | roles _ _ _ => exact absurd rfl hroles
    | _ => exact SecurityDirectoryPayload.humanPermissions_congr rfl rfl

end HumanOp

/-! ## Runs -/

section Runs

variable {s t : HumanSnapshot} {call : HumanCall} {ms : List HumanMove} {id : List UInt8}

/-- An account is as it was, but for an operation that sets its roles. -/
theorem HumanStep.permissions (h : HumanStep s call t) (hs : s.payload.Valid) {account : HumanAccount}
    (haccount : t.payload.accountOf id = some account)
    (hroles : call.err = espOk → call.op.setsRoles? ≠ some id) :
    ∃ before, s.payload.accountOf id = some before ∧ before.permissions = account.permissions := by
  obtain ⟨op, err⟩ := call
  rcases h.cases hs with ⟨-, rfl⟩ | ⟨hok, -, ht, heffect⟩
  · exact ⟨account, haccount, rfl⟩
  · rcases heffect.accounts hs ht with ⟨k, old, new, hrewrites, hputs⟩ | ⟨-, hsame⟩
    · rw [hputs.accountOf] at haccount
      split at haccount
      · next hid =>
        subst hid
        obtain ⟨human, rfl, rfl⟩ := Option.map_eq_some_iff.mp haccount
        cases old with
        | none =>
          cases hrewrites with
          | created hnew _ _ =>
            subst hnew
            exact absurd rfl (hroles hok)
        | some old =>
          exact ⟨_, hputs.accountOf_self.1, (hrewrites.permissions (hroles hok)).symm⟩
      · exact ⟨account, haccount, rfl⟩
    · exact ⟨account, (hsame id).symm.trans haccount, rfl⟩

/-- What an operation that goes through gives. -/
theorem HumanStep.within (h : HumanStep s call t) (hs : s.payload.Valid) (hok : call.err = espOk)
    (hgives : call.op.gives? = some id) :
    ∃ human, t.payload.find id = some human ∧
      caps (humanPermissions t.payload human) ⊆ mayHold call.op.actor (.ofCode human.level) := by
  rcases h.cases hs with ⟨herr, -⟩ | ⟨-, -, ht, heffect⟩
  · exact absurd hok herr
  · rcases heffect.accounts hs ht with ⟨k, old, new, hrewrites, hputs⟩ | ⟨hnone, -⟩
    · exact hrewrites.within hputs hs ht hgives
    · rw [gives_target hgives] at hnone
      cases hnone

/-- What the console may delegate, and the right that goes to client administrators. -/
def consoleGives : Set Nat := caps (levelDelegable .argusPersonnel) ∪ caps permissionManageClientAdmins

/-- Nobody holds more than the console gives. -/
def Bounded (payload : SecurityDirectoryPayload) : Prop :=
  ∀ id account, payload.accountOf id = some account → caps account.permissions ⊆ consoleGives

/-- The console's principal, or that of a login after some of the moves. -/
def Issued (s : HumanSnapshot) (ms : List HumanMove) (principal : AuthorizationPrincipal) : Prop :=
  (∃ version securityEpoch, principal = consolePrincipal version securityEpoch) ∨
    ∃ l r human securityEpoch, ms = l ++ r ∧ human ∈ (final s l).payload.humanEntries ∧
      buildHumanPrincipal human (final s l).payload securityEpoch = some principal

/-- A login gives no more to delegate than the account holds. -/
theorem caps_login {p : SecurityDirectoryPayload} (hp : p.Valid) {human : HumanRecord}
    (h : human ∈ p.humanEntries) {securityEpoch : UInt32} {principal : AuthorizationPrincipal}
    (hbuild : buildHumanPrincipal human p securityEpoch = some principal) :
    caps principal.delegablePermissions ⊆
      caps (humanPermissions p human) \ caps permissionManageClientAdmins := by
  obtain ⟨-, -, -, -, -, -, -, -, -, hdelegable⟩ := buildHumanPrincipal_some hp h hbuild
  rw [hdelegable]
  exact Set.sdiff_subset_sdiff_left Set.inter_subset_right

theorem Bounded.login {p : SecurityDirectoryPayload} (hbounded : Bounded p) (hp : p.Valid)
    {human : HumanRecord} (h : human ∈ p.humanEntries) {securityEpoch : UInt32}
    {principal : AuthorizationPrincipal}
    (hbuild : buildHumanPrincipal human p securityEpoch = some principal) :
    caps principal.delegablePermissions ⊆ caps (levelDelegable .argusPersonnel) := by
  intro i hi
  obtain ⟨hholds, hclient⟩ := caps_login hp h hbuild hi
  exact (hbounded _ _ (hp.accountOf_of_mem h) hholds).resolve_right hclient

theorem mayHold_subset {actor : AuthorizationPrincipal} {level : SecurityLevel}
    (h : caps actor.delegablePermissions ⊆ caps (levelDelegable .argusPersonnel)) :
    mayHold actor level ⊆ consoleGives :=
  Set.union_subset_union h fun _ hi => hi.1

/-- One step by an actor who may delegate no more than the console. -/
theorem HumanStep.bounded (h : HumanStep s call t) (hs : s.payload.Valid)
    (hactor : caps call.op.actor.delegablePermissions ⊆ caps (levelDelegable .argusPersonnel))
    (hbounded : Bounded s.payload) : Bounded t.payload := by
  intro id account haccount
  by_cases hroles : call.err = espOk ∧ call.op.setsRoles? = some id
  · obtain ⟨human, hfind, hwithin⟩ := h.within hs hroles.1 (setsRoles_gives hroles.2)
    rw [SecurityDirectoryPayload.accountOf_of_find hfind] at haccount
    obtain rfl := Option.some.inj haccount
    exact hwithin.trans (mayHold_subset hactor)
  · obtain ⟨before, hbefore, hsame⟩ := h.permissions hs haccount fun hok hsets => hroles ⟨hok, hsets⟩
    rw [← hsame]
    exact hbounded id before hbefore

/-- Nobody may delegate more than the console while all directories so far are bounded. -/
theorem Issued.delegable {principal : AuthorizationPrincipal} (h : Issued s ms principal)
    (hall : ∀ l r, ms = l ++ r → (final s l).payload.Valid ∧ Bounded (final s l).payload) :
    caps principal.delegablePermissions ⊆ caps (levelDelegable .argusPersonnel) := by
  rcases h with ⟨version, securityEpoch, rfl⟩ | ⟨l, r, human, securityEpoch, heq, hmem, hbuild⟩
  · exact subset_rfl
  · obtain ⟨hvalid, hbounded⟩ := hall l r heq
    exact hbounded.login hvalid hmem hbuild

/-- The directories of a run are bounded. -/
theorem bounded_of_isRun (h : IsRun HumanStep s ms) (hs : s.payload.Valid) (h0 : Bounded s.payload)
    (hactors : ∀ l m r, ms = l ++ m :: r → Issued s l m.ev.op.actor) :
    ∀ l r, ms = l ++ r → (final s l).payload.Valid ∧ Bounded (final s l).payload := by
  refine (h.inv_past_of (I := fun t ns => final s ns = t ∧
      ∀ l r, ns = l ++ r → (final s l).payload.Valid ∧ Bounded (final s l).payload)
    (K := fun l m => Issued s l m.ev.op.actor) ⟨rfl, ?_⟩ hactors ?_).2
  · intro l r heq
    obtain ⟨rfl, -⟩ := List.append_eq_nil_iff.mp heq.symm
    exact ⟨hs, h0⟩
  · rintro ns m ⟨hpre, hall⟩ hstep hissued
    have hpost : final s (ns ++ [m]) = m.post := by
      rw [final_append]
      rfl
    refine ⟨hpost, fun l r heq => ?_⟩
    rcases List.eq_nil_or_concat r with rfl | ⟨r', b, rfl⟩
    · rw [List.append_nil] at heq
      obtain ⟨hvalid, hbounded⟩ := hall ns [] (List.append_nil ns).symm
      rw [hpre] at hvalid hbounded
      rw [← heq, hpost]
      exact ⟨hstep.valid hvalid, hstep.bounded hvalid (hissued.delegable hall) hbounded⟩
    · rw [List.concat_eq_append, ← List.append_assoc] at heq
      exact hall l r' (List.append_inj' heq rfl).1

/-- Until its roles are set again, a human who was given something by an actor has no more to
delegate than the actor. -/
theorem login_of_given {actor : AuthorizationPrincipal} {given : HumanAccount} (h : IsRun HumanStep s ms)
    (hs : s.payload.Valid) (hgiven : s.payload.accountOf id = some given)
    (hwithin : caps given.permissions ⊆ mayHold actor given.level)
    (hroles : ∀ m ∈ ms, m.ev.err = espOk → m.ev.op.setsRoles? ≠ some id) {human : HumanRecord}
    (hmem : human ∈ (final s ms).payload.humanEntries) (hid : human.id = id) {securityEpoch : UInt32}
    {principal : AuthorizationPrincipal}
    (hbuild : buildHumanPrincipal human (final s ms).payload securityEpoch = some principal) :
    caps principal.delegablePermissions ⊆ caps actor.delegablePermissions := by
  have hinv := h.inv_of (I := fun t => t.payload.Valid ∧
      ∀ account, t.payload.accountOf id = some account → account.permissions = given.permissions)
    (K := fun m => m.ev.err = espOk → m.ev.op.setsRoles? ≠ some id) ⟨hs, ?_⟩ hroles ?_
  · obtain ⟨hvalid, hsame⟩ := hinv.2
    have hpermissions : humanPermissions (final s ms).payload human = given.permissions :=
      hsame _ (SecurityDirectoryPayload.accountOf_of_find (hvalid.find_iff.mpr ⟨hmem, hid⟩))
    intro i hi
    obtain ⟨hholds, hclient⟩ := caps_login hvalid hmem hbuild hi
    rw [hpermissions] at hholds
    exact (hwithin hholds).resolve_right fun hspecial => hclient hspecial.1
  · intro account haccount
    rw [hgiven] at haccount
    rw [Option.some.inj haccount]
  · rintro m ⟨hvalid, hsame⟩ hstep hkept
    refine ⟨hstep.valid hvalid, fun account haccount => ?_⟩
    obtain ⟨before, hbefore, heq⟩ := hstep.permissions hvalid haccount hkept
    rw [← heq]
    exact hsame before hbefore

end Runs

theorem freshHumans_bounded : Bounded freshHumans.payload := by
  intro id account haccount
  rw [freshHumans_accountOf] at haccount
  cases haccount

/-- **No escalation.** -/
theorem human_no_escalation {ms : List HumanMove} (h : IsRun HumanStep freshHumans ms)
    (hactors : ∀ l m r, ms = l ++ m :: r → Issued freshHumans l m.ev.op.actor) :
    (∀ m ∈ ms, ∀ id, m.ev.err = espOk → m.ev.op.gives? = some id →
      ∃ human, m.post.payload.find id = some human ∧
        caps (humanPermissions m.post.payload human) ⊆
          mayHold m.ev.op.actor (.ofCode human.level)) ∧
    (∀ l m k r id, ms = l ++ m :: (k ++ r) → m.ev.err = espOk → m.ev.op.gives? = some id →
      (∀ n ∈ k, n.ev.err = espOk → n.ev.op.setsRoles? ≠ some id) →
      ∀ human ∈ (final m.post k).payload.humanEntries, human.id = id → ∀ securityEpoch principal,
        buildHumanPrincipal human (final m.post k).payload securityEpoch = some principal →
        caps principal.delegablePermissions ⊆ caps m.ev.op.actor.delegablePermissions) ∧
    ∀ l r, ms = l ++ r → ∀ human ∈ (final freshHumans l).payload.humanEntries,
      caps (humanPermissions (final freshHumans l).payload human) ⊆ consoleGives := by
  have hs := freshHumans_valid
  have h0 := freshHumans_bounded
  generalize freshHumans = s at *
  have hvalid := (human_run_valid h hs).1
  refine ⟨fun m hm id hok hgives => (h.step_of_mem m hm).within (hvalid m hm).1 hok hgives, ?_, ?_⟩
  · rintro l m k r id rfl hok hgives hroles human hmem hid securityEpoch principal hbuild
    have hm : m ∈ l ++ m :: (k ++ r) := by simp
    obtain ⟨giver, hfind, hwithin⟩ := (h.step_of_mem m hm).within (hvalid m hm).1 hok hgives
    have haccount := SecurityDirectoryPayload.accountOf_of_find hfind
    rw [isRun_append, isRun_cons, isRun_append] at h
    exact login_of_given h.2.2.2.1 (hvalid m hm).2 haccount hwithin hroles hmem hid hbuild
  · intro l r heq human hmem
    obtain ⟨hvalid, hbounded⟩ := bounded_of_isRun h hs h0 hactors l r heq
    have hholds := hbounded _ _ (hvalid.accountOf_of_mem hmem)
    exact hholds

/-- The console makes a client administrator. -/
def madeAdmin : List HumanMove :=
  traceWhile humanServe freshHumans [createHumanBy (consolePrincipal 1 1) "admin" .clientAdmin]

/-- What an administrator who logs in makes of the directory. -/
def madeViewer (actor : AuthorizationPrincipal) : List HumanMove :=
  traceWhile humanServe (final freshHumans madeAdmin) [createHumanBy actor "viewer" .viewer]

/-- The administrator logs in and makes a viewer. -/
theorem human_no_escalation_admin :
    ∃ ms : List HumanMove, IsRun HumanStep freshHumans ms ∧ ms.length = 2 ∧
      (∀ m ∈ ms, m.ev.err = espOk) ∧
      ∀ l r, ms = l ++ r → ∀ human ∈ (final freshHumans l).payload.humanEntries,
        caps (humanPermissions (final freshHumans l).payload human) ⊆ consoleGives := by
  have hall : ((madeAdmin.length = 1 && madeAdmin.all fun m => m.ev.err = espOk) &&
      (final freshHumans madeAdmin).payload.humanEntries.any fun human =>
        (buildHumanPrincipal human (final freshHumans madeAdmin).payload 1).any fun actor =>
          (madeViewer actor).length = 1 && (madeViewer actor).all fun m => m.ev.err = espOk) = true := by
    decide +kernel
  obtain ⟨hfirst, hlogin⟩ := Bool.and_eq_true_iff.mp hall
  obtain ⟨human, hhuman, hlogin⟩ := List.any_eq_true.mp hlogin
  obtain ⟨actor, hbuild, hsecond⟩ := (Option.any_eq_true _ _).mp hlogin
  have hrun : IsRun HumanStep freshHumans (madeAdmin ++ madeViewer actor) :=
    (isRun_append _ _ _).mpr ⟨humanServe_run _ _, humanServe_run _ _⟩
  have hconsole (m : HumanMove) (hm : m ∈ madeAdmin) : m.ev.op.actor = consolePrincipal 1 1 := by
    rw [List.mem_singleton.mp (humanOp_mem_of_serve hm)]
    rfl
  have hviewer (m : HumanMove) (hm : m ∈ madeViewer actor) : m.ev.op.actor = actor := by
    rw [List.mem_singleton.mp (humanOp_mem_of_serve hm)]
    rfl
  rw [Bool.and_eq_true, decide_eq_true_eq, List.length_eq_one_iff] at hfirst hsecond
  obtain ⟨⟨m, hm⟩, hfirst⟩ := hfirst
  obtain ⟨⟨n, hn⟩, hsecond⟩ := hsecond
  have hfinal : final freshHumans madeAdmin = final freshHumans [m] := by rw [hm]
  rw [hfinal] at hhuman hbuild
  rw [hm] at hrun hconsole hfirst
  rw [hn] at hrun hviewer hsecond
  clear hm hn hlogin hall hfinal
  generalize hfresh : freshHumans = s at *
  refine ⟨[m, n], hrun, rfl, ?_, ?_⟩
  · intro v hv
    rcases List.mem_cons.mp hv with rfl | hv
    · exact of_decide_eq_true (List.all_eq_true.mp hfirst _ List.mem_cons_self)
    · exact of_decide_eq_true (List.all_eq_true.mp hsecond _ hv)
  · subst hfresh
    refine (human_no_escalation hrun ?_).2.2
    refine forall_split_cons.mpr ⟨.inl ⟨1, 1, hconsole m List.mem_cons_self⟩, ?_⟩
    refine forall_split_cons.mpr ⟨.inr ⟨[m], [], human, 1, rfl, hhuman, ?_⟩, forall_split_nil⟩
    rw [hviewer n List.mem_cons_self]
    exact hbuild

end Argus
