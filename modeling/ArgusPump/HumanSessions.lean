import ArgusPump.HumanAccounts
import ArgusPump.SecurityStoreEdits

/-!
# Live human sessions

A login reads the directory and then the store's status, and captures what they say of the
human; `principal_current` of `main/argus_http_security.c` reads both again and compares.
Other tasks may change either between two reads.

The counters of a record start over when the human is deleted and made again, but the epoch
of a new record is the generation of the commit that makes it, and no epoch of a human is
ever ahead of the generation.

    fewer than 2^32 generations and epochs → the principal is current ↔ nothing has ended
      the human's sessions and the store's epoch is the one of the login  (human_session)
-/

namespace Argus

open Interact Stamp

/-! ## Login and currency -/

/-- `argus_login_result_t`. -/
inductive LoginResult
  | success
  | invalidCredentials
  | throttled
  | busy
  | storeUnavailable
  | invalidRequest
deriving DecidableEq

/-- The human of a login name: the first valid record of all there is room for. -/
def loginCandidate (directory : SecurityDirectoryPayload) (canonical : List UInt8) : Option HumanRecord :=
  directory.humans.toList.find? fun human => human.valid && cString human.login = canonical

/-- `argus_auth_service_authenticate`: `refusal` is what the throttle and the admission answer,
`verify` what the password check does, `console` what `get_console_verifier` reads. -/
def authServiceAuthenticate (directory : SecurityDirectoryPayload) (console : Except EspErr UInt32)
    (securityEpoch : UInt32) (username password : List UInt8) (refusal : Option LoginResult)
    (verify : Except EspErr Bool) : Except LoginResult AuthorizationPrincipal :=
  match canonicalizeLogin username with
  | none => .error .invalidRequest
  | some canonical =>
    if password.length = 0 ∨ password.length > 128 then .error .invalidRequest
    else
      match refusal, verify with
      | some result, _ => .error result
      | none, .error err => .error (if err = espErrTimeout then .busy else .storeUnavailable)
      | none, .ok isMatch =>
        if canonical = asciiBytes "argus" then
          match console with
          | .error _ => .error .storeUnavailable
          | .ok version =>
            if ¬ isMatch then .error .invalidCredentials
            else .ok (consolePrincipal version securityEpoch)
        else
          match loginCandidate directory canonical with
          | none => .error .invalidCredentials
          | some human =>
            if ¬ isMatch ∨ human.enabled = 0 ∨ human.revoked ≠ 0 then .error .invalidCredentials
            else
              match buildHumanPrincipal human directory securityEpoch with
              | none => .error .invalidCredentials
              | some principal => .ok principal

/-- `principal_current`. -/
def principalCurrent (directory : SecurityDirectoryPayload) (console : Except EspErr UInt32)
    (securityEpoch : UInt32) (principal : AuthorizationPrincipal) : Bool :=
  match principal.type with
  | .console =>
    match console with
    | .error _ => false
    | .ok version =>
      version = principal.credentialVersion && securityEpoch = principal.securityEpoch &&
        securityEpoch = principal.principalRevision
  | .human =>
    match directory.find (cString principal.identifier) with
    | none => false
    | some human =>
      human.enabled ≠ 0 && human.revoked = 0 && human.credentialVersion = principal.credentialVersion &&
        human.recordSecurityEpoch = principal.principalRevision &&
        securityEpoch = principal.securityEpoch
  | _ => false

section Login

variable {p : SecurityDirectoryPayload} {human : HumanRecord}

theorem HumanRecord.terminated (h : human.valid = true) : strlen human.identifier < 37 := by
  have hle := strlen_le human.identifier
  unfold valid at h
  simp only [Bool.and_eq_true] at h
  have hidentifier := h.1.1.1.1.1.1.1.1.1.1.1.2
  unfold boundedStringValid at hidentifier
  split at hidentifier
  · cases hidentifier
  · omega

/-- A valid record is one in use. -/
theorem mem_humanEntries (hp : p.Valid) (hmem : human ∈ p.humans.toList) (h : human.valid = true) :
    human ∈ p.humanEntries := by
  obtain ⟨i, hi, rfl⟩ := List.getElem_of_mem hmem
  rw [Vector.length_toList] at hi
  rw [Vector.getElem_toList] at h ⊢
  by_cases hlt : i < p.humanCount.toNat
  · exact Packed.mem_entries.mpr ⟨⟨i, hi⟩, hlt, rfl⟩
  · have hzero := hp.humanTail ⟨i, hi⟩ (Nat.le_of_not_lt hlt)
    have hinvalid : HumanRecord.zero.valid = false := by decide
    rw [show p.humans[i] = HumanRecord.zero from hzero, hinvalid] at h
    cases h

/-- **A human's login** captures its account. -/
theorem authServiceAuthenticate_human (hp : p.Valid) {console : Except EspErr UInt32}
    {securityEpoch : UInt32} {username password : List UInt8} {refusal : Option LoginResult}
    {verify : Except EspErr Bool} {principal : AuthorizationPrincipal}
    (h : authServiceAuthenticate p console securityEpoch username password refusal verify = .ok principal)
    (htype : principal.type = .human) :
    ∃ account, p.accountOf (cString principal.identifier) = some account ∧ account.usable = true ∧
      principal.credentialVersion = account.credentialVersion ∧
      principal.principalRevision = account.recordSecurityEpoch ∧
      principal.permissions = account.permissions ∧ principal.securityEpoch = securityEpoch := by
  unfold authServiceAuthenticate at h
  split at h
  · cases h
  · split at h
    · cases h
    · split at h
      · cases h
      · cases h
      · split at h
        · split at h
          · cases h
          · split at h
            · cases h
            · cases h
              cases htype
        · split at h
          · cases h
          · next human hfind =>
            split at h
            · cases h
            · split at h
              · cases h
              · next built hbuild =>
                obtain rfl := Except.ok.inj h
                unfold loginCandidate at hfind
                have hcandidate := List.find?_some hfind
                have hvalid := (Bool.and_eq_true_iff.mp hcandidate).1
                have hmem := mem_humanEntries hp (List.mem_of_find?_eq_some hfind) hvalid
                obtain ⟨henabled, hrevoked, -, hidentifier, -, hversion, hepoch, hrevision, hpermissions, -⟩ :=
                  buildHumanPrincipal_some hp hmem hbuild
                refine ⟨p.account human, ?_, ?_, hversion, hrevision, hpermissions, hepoch⟩
                · rw [hidentifier, cString_strlcpy_cString (HumanRecord.terminated hvalid)]
                  exact hp.accountOf_of_mem hmem
                · exact Bool.and_eq_true_iff.mpr ⟨decide_eq_true henabled, decide_eq_true hrevoked⟩

/-- Currency of a human's principal, by its account. -/
theorem principalCurrent_human {console : Except EspErr UInt32} {securityEpoch : UInt32}
    {principal : AuthorizationPrincipal} (htype : principal.type = .human) :
    principalCurrent p console securityEpoch principal = true ↔
      ∃ account, p.accountOf (cString principal.identifier) = some account ∧ account.usable = true ∧
        account.credentialVersion = principal.credentialVersion ∧
        account.recordSecurityEpoch = principal.principalRevision ∧
        securityEpoch = principal.securityEpoch := by
  unfold principalCurrent SecurityDirectoryPayload.accountOf
  rw [htype]
  dsimp only
  split
  · next hnone => simp [hnone]
  · next human hfind =>
    rw [hfind]
    simp only [Bool.and_eq_true, decide_eq_true_eq, Option.map_some, Option.some.injEq, exists_eq_left',
      SecurityDirectoryPayload.account, and_assoc]

end Login

/-! ## Runs of the directory and the store -/

/-- The directory of humans and the payload of the security store. -/
structure SecurityStores where
  directory : HumanSnapshot
  store : SecurityPayload

inductive StoresAct
  | human (call : HumanCall)
  | store (op : StoreOp) (err : EspErr)

/-- An operation on humans, or one of the store: refused, with nothing to commit, failed, or
committed. -/
inductive StoresStep : SecurityStores → StoresAct → SecurityStores → Prop
  | human {s : SecurityStores} {call : HumanCall} {directory : HumanSnapshot} :
      HumanStep s.directory call directory →
      StoresStep s (.human call) { s with directory := directory }
  | storeRefused {s : SecurityStores} {op : StoreOp} {err : EspErr} : op.edit s.store = .error err →
      err ≠ espOk → StoresStep s (.store op err) s
  | storeUnchanged {s : SecurityStores} {op : StoreOp} : op.edit s.store = .ok none →
      StoresStep s (.store op espOk) s
  | storeFailed {s : SecurityStores} {op : StoreOp} {store : SecurityPayload} {err : EspErr} :
      op.edit s.store = .ok (some store) → err ≠ espOk → StoresStep s (.store op err) s
  | storeCommitted {s : SecurityStores} {op : StoreOp} {store : SecurityPayload} :
      op.edit s.store = .ok (some store) → store.valid = true →
      StoresStep s (.store op espOk) { s with store := store }

abbrev StoresMove := Move SecurityStores StoresAct

/-- The identifier of the human whose sessions an operation ends. -/
def HumanOp.ends? : HumanOp → Option (List UInt8)
  | .setEnabled _ identifier _ | .replacePassword _ identifier _ _ | .assignCustomRoles _ identifier _
  | .deleteHuman _ identifier => some identifier
  | .replaceOwnPassword actor _ _ => some (cString actor.identifier)
  | _ => none

namespace StoresMove

/-- The move makes a new generation of the directory. -/
def commitsDirectory (m : StoresMove) : Bool :=
  match m.ev with
  | .human call => call.err = espOk
  | .store _ _ => false

/-- The move makes a new epoch of the store. -/
def commitsStore (m : StoresMove) : Bool :=
  match m.ev with
  | .human _ => false
  | .store op err => err = espOk && (op.edit m.pre.store).toOption.join.isSome

/-- A committed operation enables or disables the human, replaces its password, assigns its
roles or deletes it. -/
def Ends (id : List UInt8) (m : StoresMove) : Prop :=
  ∃ op, m.ev = .human ⟨op, espOk⟩ ∧ op.ends? = some id

end StoresMove

/-- The account of an identifier, its stamp and the clock. -/
def humanEntry (id : List UInt8) (s : SecurityStores) : Option HumanAccount := s.directory.payload.accountOf id

def HumanAccount.stamp (account : HumanAccount) : Nat := account.recordSecurityEpoch.toNat

def humanClock (s : SecurityStores) : Nat := s.directory.generation.toNat

section Steps

variable {id : List UInt8}

/-- A change ends the human's sessions and raises its epoch, or leaves the account. -/
theorem HumanOp.Changes.account {p : SecurityDirectoryPayload} {op : HumanOp} {old new : HumanRecord}
    (h : op.Changes p old new) :
    op.ends? = some old.id ∧ new.recordSecurityEpoch = bumped old.recordSecurityEpoch ∨
      op.ends? = none ∧ p.account new = p.account old := by
  cases h with
  | displayName _ =>
    refine .inr ⟨rfl, ?_⟩
    exact SecurityDirectoryPayload.account_congr rfl rfl rfl rfl rfl rfl rfl
  | ownPassword hid => exact .inl ⟨congrArg some hid.symm, rfl⟩
  | _ => exact .inl ⟨rfl, rfl⟩

theorem bumped_toNat {v : UInt32} (h : v.toNat + 1 < 2 ^ 32) : (bumped v).toNat = v.toNat + 1 := by
  have hsucc : (v + 1).toNat = v.toNat + 1 := by
    rw [UInt32.toNat_add]
    exact Nat.mod_eq_of_lt h
  unfold bumped
  split
  · next hzero =>
    rw [hzero] at hsucc
    exact absurd hsucc (by simp)
  · exact hsucc

theorem HumanOp.ends_target {op : HumanOp} (h : op.ends? = some id) : op.target? = some id := by
  cases op with
  | createHuman actor identifier login displayName scope level direct password verifier => cases h
  | updateDisplayName actor identifier displayName => cases h
  | createRole actor identifier level permissions delegable => cases h
  | deleteRole actor identifier => cases h
  | _ => exact h

theorem StoresMove.ends_iff {s t : SecurityStores} {op : HumanOp} :
    StoresMove.Ends id ⟨s, .human ⟨op, espOk⟩, t⟩ ↔ op.ends? = some id := by
  constructor
  · rintro ⟨op', hev, hends⟩
    cases hev
    exact hends
  · exact fun hends => ⟨op, rfl, hends⟩

/-- The human an operation is about. -/
theorem HumanOp.Rewrites.stamps {s : SecurityStores} {t : HumanSnapshot} {op : HumanOp}
    {old new : Option HumanRecord} (h : op.Rewrites s.directory id old new)
    (hputs : HumanOp.Puts s.directory.payload t.payload id old new)
    (hclock : t.generation.toNat = s.directory.generation.toNat + 1)
    (hbound : ∀ r, humanEntry id s = some r → r.stamp ≤ humanClock s) :
    Stamps humanClock (humanEntry id) HumanAccount.stamp (op.ends? = some id) s
      { s with directory := t } := by
  have hlt := t.generation.toNat_lt
  have hmono : humanClock s ≤ humanClock { s with directory := t } := (Nat.le_succ _).trans hclock.ge
  have hpre : humanEntry id s = old.map s.directory.payload.account := hputs.accountOf_self.1
  have hpost : humanEntry id { s with directory := t } = new.map s.directory.payload.account :=
    hputs.accountOf_self.2
  cases h with
  | @created _ _ _ _ _ _ _ _ _ _ new hnew _ _ =>
    have hstamp : (s.directory.payload.account new).stamp = humanClock s + 1 := by
      have hepoch : new.recordSecurityEpoch = s.directory.generation + 1 := by rw [hnew]; rfl
      unfold HumanAccount.stamp SecurityDirectoryPayload.account
      dsimp only
      rw [hepoch, epoch_toNat (by omega)]
      rfl
    refine ⟨hmono, fun r hr => ?_, fun r _ hr => ?_, fun _ r _ hr => ?_, fun _ r hr => ?_⟩
    · cases hpost.symm.trans hr
      exact hstamp.trans_le hclock.ge
    · cases hpost.symm.trans hr
      exact hstamp.ge
    · cases hpre.symm.trans hr
    · cases hpre.symm.trans hr
  | deleted _ _ =>
    refine ⟨hmono, fun r hr => ?_, fun r _ hr => ?_, fun _ _ r _ hr => ?_, fun hnone => absurd rfl hnone⟩
    all_goals cases hpost.symm.trans hr
  | @changed _ old new hchanges =>
    rcases hchanges.account with ⟨hends, hepoch⟩ | ⟨hnone, hsame⟩
    · have hle := hbound _ hpre
      have hstamp : (s.directory.payload.account new).stamp =
          (s.directory.payload.account old).stamp + 1 := by
        unfold HumanAccount.stamp SecurityDirectoryPayload.account at hle ⊢
        dsimp only at hle ⊢
        unfold humanClock at hle
        rw [hepoch]
        exact bumped_toNat (by omega)
      refine ⟨hmono, fun r hr => ?_, fun r hr _ => ?_, fun _ r r' hr hr' => ?_,
        fun hnone => absurd hends hnone⟩
      · cases hpost.symm.trans hr
        rw [hstamp]
        exact (Nat.succ_le_succ hle).trans hclock.ge
      · cases hpre.symm.trans hr
      · cases hpre.symm.trans hr
        cases hpost.symm.trans hr'
        rw [hstamp]
        exact Nat.lt_succ_self _
    · refine Stamps.of_same hbound hmono ?_ (by rw [hnone]; exact nofun)
      rw [hpre, hpost, Option.map_some, Option.map_some, hsame]

/-- **One operation on humans**: what it writes is stamped past the account, a new account past
the clock. -/
theorem HumanStep.stamps {s : SecurityStores} {call : HumanCall} {t : HumanSnapshot}
    (h : HumanStep s.directory call t) (hs : s.directory.payload.Valid)
    (hcount : call.err = espOk → t.generation.toNat = s.directory.generation.toNat + 1)
    (hbound : ∀ r, humanEntry id s = some r → r.stamp ≤ humanClock s) :
    Stamps humanClock (humanEntry id) HumanAccount.stamp
      (StoresMove.Ends id ⟨s, .human call, { s with directory := t }⟩) s { s with directory := t } := by
  obtain ⟨op, err⟩ := call
  rcases h.cases hs with ⟨herr, rfl⟩ | ⟨rfl, -, ht, heffect⟩
  · refine Stamps.of_same hbound le_rfl rfl ?_
    rintro ⟨op', hev, -⟩
    cases hev
    exact herr rfl
  · have hclock : t.generation.toNat = s.directory.generation.toNat + 1 := hcount rfl
    have hmono : humanClock s ≤ humanClock { s with directory := t } := (Nat.le_succ _).trans hclock.ge
    rw [StoresMove.ends_iff]
    rcases heffect.accounts hs ht with ⟨k, old, new, hrewrites, hputs⟩ | ⟨hnone, hsame⟩
    · by_cases hid : id = k
      · subst hid
        exact hrewrites.stamps hputs hclock hbound
      · refine Stamps.of_same hbound hmono ?_ fun hends => hid ?_
        · exact (hputs.accountOf id).trans (if_neg hid)
        · exact Option.some.inj ((HumanOp.ends_target hends).symm.trans hrewrites.target)
    · refine Stamps.of_same hbound hmono (hsame id) fun hends => ?_
      rw [HumanOp.ends_target hends] at hnone
      cases hnone

theorem StoresStep.valid {s t : SecurityStores} {act : StoresAct} (h : StoresStep s act t)
    (hs : s.directory.payload.Valid ∧ s.store.valid = true) :
    t.directory.payload.Valid ∧ t.store.valid = true := by
  cases h with
  | human hstep => exact ⟨hstep.valid hs.1, hs.2⟩
  | storeCommitted _ hvalid => exact ⟨hs.1, hvalid⟩
  | _ => exact hs

/-- The generation of the directory counts its commits. -/
theorem StoresStep.generation :
    Counts StoresStep (fun s => s.directory.generation) StoresMove.commitsDirectory := by
  rintro ⟨s, act, t⟩ h
  dsimp only at h ⊢
  cases h with
  | human hstep =>
    unfold StoresMove.commitsDirectory
    cases hstep with
    | refused _ herr => exact (if_neg (by simpa using herr)).symm
    | failed _ herr => exact (if_neg (by simpa using herr)).symm
    | committed _ _ => rfl
  | _ => rfl

/-- The epoch of the store counts its commits. -/
theorem StoresStep.epoch :
    Counts StoresStep (fun s => s.store.securityEpoch) StoresMove.commitsStore := by
  rintro ⟨s, act, t⟩ h
  dsimp only at h ⊢
  unfold StoresMove.commitsStore
  cases h with
  | human _ => rfl
  | storeRefused _ herr => simp [herr]
  | storeUnchanged hedit =>
    simp only [hedit]
    rfl
  | storeFailed _ herr => simp [herr]
  | storeCommitted hedit hvalid =>
    simp only [hedit]
    exact StoreOp.epoch_of_commit hedit hvalid

theorem StoresStep.stamps (m : StoresMove) (h : StoresStep m.pre m.ev m.post)
    (hs : m.pre.directory.payload.Valid)
    (hcount : m.commitsDirectory → m.post.directory.generation.toNat = m.pre.directory.generation.toNat + 1)
    (hbound : ∀ r, humanEntry id m.pre = some r → r.stamp ≤ humanClock m.pre) :
    Stamps humanClock (humanEntry id) HumanAccount.stamp (m.Ends id) m.pre m.post := by
  obtain ⟨s, act, t⟩ := m
  dsimp only at h hs hcount hbound ⊢
  cases h with
  | human hstep => exact hstep.stamps hs (fun hok => hcount (decide_eq_true hok)) hbound
  | storeCommitted _ _ => exact Stamps.of_same hbound le_rfl rfl (by rintro ⟨op, hev, -⟩; cases hev)
  | _ => exact Stamps.of_same hbound le_rfl rfl (by rintro ⟨op, hev, -⟩; cases hev)

end Steps

/-! ## Sessions over runs -/

section Sessions

variable {store : SecurityPayload} {ms l a k b : List StoresMove} {id : List UInt8}

/-- The stores, with the directory of a first boot. -/
def freshStores (store : SecurityPayload) : SecurityStores := ⟨freshHumans, store⟩

theorem stores_run_valid (h : IsRun StoresStep (freshStores store) ms) (hstore : store.valid = true) :
    (∀ m ∈ ms, (m.pre.directory.payload.Valid ∧ m.pre.store.valid = true) ∧
      m.post.directory.payload.Valid ∧ m.post.store.valid = true) ∧
      (final (freshStores store) ms).directory.payload.Valid ∧
      (final (freshStores store) ms).store.valid = true :=
  h.inv (I := fun t => t.directory.payload.Valid ∧ t.store.valid = true) ⟨freshHumans_valid, hstore⟩
    fun _ hi hstep => hstep.valid hi

theorem freshStores_entry : humanEntry id (freshStores store) = none := freshHumans_accountOf id

/-- In a run with fewer than 2^32 generations every step stamps its writes. -/
theorem stores_run_stamps (h : IsRun StoresStep (freshStores store) ms) (hstore : store.valid = true)
    (hgen : 1 + ms.countP StoresMove.commitsDirectory < 2 ^ 32) :
    ∀ m ∈ ms, Stamps humanClock (humanEntry id) HumanAccount.stamp (m.Ends id) m.pre m.post := by
  have hcounts := StoresStep.generation.succ h (show (1 : UInt32) ≠ 0 by decide) hgen
  have hvalid := (stores_run_valid h hstore).1
  refine stamps_of_isRun h (fun r hr => ?_) fun m hm =>
    StoresStep.stamps m (h.step_of_mem m hm) (hvalid m hm).1.1 (hcounts m hm)
  rw [freshStores_entry] at hr
  cases hr

/-- The epoch of the store is where it was if nothing is committed. -/
theorem session_epoch (h : IsRun StoresStep (freshStores store) (l ++ k)) (hstore : store.valid = true)
    (hepoch : 1 + (l ++ k).countP StoresMove.commitsStore < 2 ^ 32) :
    (final (freshStores store) (l ++ k)).store.securityEpoch =
        (final (freshStores store) l).store.securityEpoch ↔
      ∀ m ∈ k, m.commitsStore = false := by
  obtain ⟨hl, hk⟩ := (isRun_append _ l k).mp h
  have hne := SecurityPayload.epoch_of_valid (stores_run_valid hl hstore).2.2
  rw [List.countP_append] at hepoch
  rw [final_append]
  exact StoresStep.epoch.same_iff hk hne (by omega)

/-- An account is as it was at the login, by its epoch, if nothing has ended its sessions. -/
theorem session_account (h : IsRun StoresStep (freshStores store) (l ++ k)) (hstore : store.valid = true)
    (hgen : 1 + (l ++ k).countP StoresMove.commitsDirectory < 2 ^ 32) {account : HumanAccount}
    (haccount : humanEntry id (final (freshStores store) l) = some account) :
    ((∃ r, humanEntry id (final (freshStores store) (l ++ k)) = some r ∧
        r.recordSecurityEpoch = account.recordSecurityEpoch) ↔ ∀ m ∈ k, ¬ m.Ends id) ∧
      ((∀ m ∈ k, ¬ m.Ends id) → humanEntry id (final (freshStores store) (l ++ k)) = some account) := by
  have hstamps : ∀ m ∈ l ++ k, Stamps humanClock (humanEntry id) HumanAccount.stamp (m.Ends id)
      m.pre m.post := stores_run_stamps h hstore hgen
  have h0 : ∀ r, humanEntry id (freshStores store) = some r → r.stamp ≤ humanClock (freshStores store) := by
    intro r hr
    rw [freshStores_entry] at hr
    cases hr
  have hkept (hnone : ∀ m ∈ k, ¬ m.Ends id) :
      humanEntry id (final (freshStores store) (l ++ k)) = some account := by
    rw [final_append]
    exact entry_of_untouched ((isRun_append _ l k).mp h).2
      (fun m hm => hstamps m (List.mem_append_right l hm)) haccount hnone
  refine ⟨⟨?_, fun hnone => ⟨account, hkept hnone, rfl⟩⟩, hkept⟩
  rintro ⟨r, hr, hsame⟩
  exact (current_iff h hstamps h0 haccount).mp ⟨r, hr, congrArg UInt32.toNat hsame⟩

/-- **Live sessions are exact.**  The login reads the directory after `l` and the store after
`l ++ a`, `principal_current` the directory after `l ++ a ++ k` and the store after `b` more. -/
theorem human_session (hstore : store.valid = true)
    (h : IsRun StoresStep (freshStores store) (l ++ a ++ k ++ b))
    (hgen : 1 + (l ++ a ++ k ++ b).countP StoresMove.commitsDirectory < 2 ^ 32)
    (hepoch : 1 + (l ++ a ++ k ++ b).countP StoresMove.commitsStore < 2 ^ 32)
    {console console' : Except EspErr UInt32} {username password : List UInt8}
    {refusal : Option LoginResult} {verify : Except EspErr Bool} {principal : AuthorizationPrincipal}
    (hlogin : authServiceAuthenticate (final (freshStores store) l).directory.payload console
      (final (freshStores store) (l ++ a)).store.securityEpoch username password refusal verify =
        .ok principal)
    (htype : principal.type = .human) :
    (principalCurrent (final (freshStores store) (l ++ a ++ k)).directory.payload console'
        (final (freshStores store) (l ++ a ++ k ++ b)).store.securityEpoch principal = true ↔
      (∀ m ∈ a ++ k, ¬ m.Ends (cString principal.identifier)) ∧
        (final (freshStores store) (l ++ a ++ k ++ b)).store.securityEpoch =
          (final (freshStores store) (l ++ a)).store.securityEpoch) ∧
    ((final (freshStores store) (l ++ a ++ k ++ b)).store.securityEpoch =
        (final (freshStores store) (l ++ a)).store.securityEpoch ↔
      ∀ m ∈ k ++ b, m.commitsStore = false) ∧
    (principalCurrent (final (freshStores store) (l ++ a ++ k)).directory.payload console'
        (final (freshStores store) (l ++ a ++ k ++ b)).store.securityEpoch principal = true →
      ∃ human, (final (freshStores store) (l ++ a ++ k)).directory.payload.find
          (cString principal.identifier) = some human ∧
        principal.permissions =
          humanPermissions (final (freshStores store) (l ++ a ++ k)).directory.payload human) := by
  have hsplit : l ++ a ++ k ++ b = l ++ a ++ (k ++ b) := by simp
  have hassoc : l ++ a ++ k = l ++ (a ++ k) := List.append_assoc l a k
  have hsession := ((isRun_append _ (l ++ a ++ k) b).mp h).1
  have hl := ((isRun_append _ l (a ++ k)).mp (hassoc ▸ hsession)).1
  have hgen' : 1 + (l ++ a ++ k).countP StoresMove.commitsDirectory < 2 ^ 32 := by
    rw [List.countP_append] at hgen
    omega
  obtain ⟨account, haccount, husable, hversion, hrevision, hpermissions, hstatus⟩ :=
    authServiceAuthenticate_human (stores_run_valid hl hstore).2.1 hlogin htype
  rw [hassoc] at hsession hgen'
  obtain ⟨hcurrent, hkept⟩ := session_account hsession hstore hgen' haccount
  rw [← hassoc] at hcurrent hkept
  have hiff : principalCurrent (final (freshStores store) (l ++ a ++ k)).directory.payload console'
        (final (freshStores store) (l ++ a ++ k ++ b)).store.securityEpoch principal = true ↔
      (∀ m ∈ a ++ k, ¬ m.Ends (cString principal.identifier)) ∧
        (final (freshStores store) (l ++ a ++ k ++ b)).store.securityEpoch =
          (final (freshStores store) (l ++ a)).store.securityEpoch := by
    rw [principalCurrent_human htype, hstatus, hversion, hrevision]
    constructor
    · rintro ⟨now, hnow, -, -, hsame, hepoch⟩
      exact ⟨hcurrent.mp ⟨now, hnow, hsame⟩, hepoch⟩
    · rintro ⟨hnone, hepoch⟩
      exact ⟨account, hkept hnone, husable, rfl, rfl, hepoch⟩
  refine ⟨hiff, ?_, fun htrue => ?_⟩
  · rw [hsplit] at h hepoch ⊢
    exact session_epoch h hstore hepoch
  · obtain ⟨human, hfind, hsame⟩ := Option.map_eq_some_iff.mp (hkept (hiff.mp htrue).1)
    exact ⟨human, hfind, hpermissions.trans (congrArg HumanAccount.permissions hsame.symm)⟩

end Sessions

/-- The console makes a viewer, which logs in and is current. -/
theorem human_session_viewer :
    ∃ (l : List StoresMove) (principal : AuthorizationPrincipal),
      IsRun StoresStep (freshStores .default) l ∧
      authServiceAuthenticate (final (freshStores .default) l).directory.payload (.error espErrNotFound)
        (final (freshStores .default) l).store.securityEpoch (asciiBytes "viewer") (.replicate 12 0x41)
        none (.ok true) = .ok principal ∧
      principal.type = .human ∧
      principalCurrent (final (freshStores .default) l).directory.payload (.error espErrNotFound)
        (final (freshStores .default) l).store.securityEpoch principal = true := by
  have hall : (humanServe freshHumans (createHumanBy (consolePrincipal 1 1) "viewer" .viewer)).any
      (fun served =>
        match authServiceAuthenticate served.2.payload (.error espErrNotFound) 1 (asciiBytes "viewer")
          (.replicate 12 0x41) none (.ok true) with
        | .ok principal => principal.type = .human
        | .error _ => false) = true := by decide +kernel
  obtain ⟨⟨call, t⟩, hserve, hlogin⟩ := (Option.any_eq_true _ _).mp hall
  have hstep := (humanServe_step freshHumans _ call t hserve).1
  have hepoch : SecurityPayload.default.securityEpoch = 1 := rfl
  have hstore := SecurityPayload.default_valid
  clear hall hserve
  dsimp only at hlogin
  rw [← hepoch] at hlogin
  generalize SecurityPayload.default = store at hlogin hstore ⊢
  generalize hname : asciiBytes "viewer" = name at hlogin ⊢
  generalize List.replicate 12 (0x41 : UInt8) = password at hlogin ⊢
  generalize hanswer : authServiceAuthenticate t.payload (.error espErrNotFound) store.securityEpoch name
    password none (.ok true) = answer at hlogin
  cases answer with
  | error err => cases hlogin
  | ok principal =>
    have htype : principal.type = .human := of_decide_eq_true hlogin
    generalize hl : [(⟨freshStores store, .human call, { freshStores store with directory := t }⟩ :
      StoresMove)] = l
    have hrun : IsRun StoresStep (freshStores store) (l ++ [] ++ [] ++ []) := by
      rw [← hl]
      exact ⟨rfl, .human hstep, trivial⟩
    have hcount (f : StoresMove → Bool) : 1 + (l ++ [] ++ [] ++ []).countP f < 2 ^ 32 := by
      refine Nat.lt_of_le_of_lt (Nat.add_le_add_left List.countP_le_length 1) ?_
      rw [← hl]
      exact Nat.succ_lt_succ (by decide)
    have hfinal : final (freshStores store) l = { freshStores store with directory := t } := by
      rw [← hl]
      rfl
    have hanswer' : authServiceAuthenticate (final (freshStores store) l).directory.payload
        (.error espErrNotFound) (final (freshStores store) (l ++ [])).store.securityEpoch name password
        none (.ok true) = .ok principal := by
      rw [List.append_nil, hfinal]
      exact hanswer
    have hcurrent : principalCurrent (final (freshStores store) (l ++ [] ++ [])).directory.payload
        (.error espErrNotFound) (final (freshStores store) (l ++ [] ++ [] ++ [])).store.securityEpoch
        principal = true := by
      refine (human_session hstore hrun (hcount _) (hcount _) hanswer' htype).1.mpr ⟨?_, ?_⟩
      · exact fun _ hm => absurd hm List.not_mem_nil
      · simp only [List.append_nil]
    simp only [List.append_nil] at hrun hanswer' hcurrent
    exact ⟨l, principal, hrun, hanswer', htype, hcurrent⟩

end Argus
