import ArgusPump.MachineService
import ArgusPump.Lib.Run

/-!
# The life of a machine record

Runs of the machine service by any actors.  Enrolling and changing permissions check what
the actor may delegate; rotating, which discloses a new credential, does not.

    every credential disclosed is within its actor's delegation ↔ every rotation is of a
      record within it                                               (machine_delegation)
    a revoked record stays revoked, disabled and as it is until it is deleted; no
      administrative permission lands on a record                    (machine_lifecycle)
-/

namespace Argus

open Interact

/-! ## Delegation -/

/-- To whom an operation that goes through discloses a credential, and for which record. -/
def MachineOp.discloses (s : MachineSnapshot) :
    MachineOp → Option (AuthorizationPrincipal × List UInt8)
  | .enroll actor _ draws _ => (freshIdentifier s.payload draws).map fun id => (actor, id)
  | .rotate actor identifier _ => some (actor, identifier)
  | _ => none

/-- A credential is disclosed for a record with permissions its actor may delegate. -/
def MachineMove.DisclosesWithin (m : MachineMove) : Prop :=
  ∀ actor id, m.ev.err = espOk → m.ev.op.discloses m.pre = some (actor, id) →
    ∃ r, m.post.payload.find id = some r ∧ Within r.permissions actor.delegablePermissions

/-- A rotation is of a record with permissions its actor may delegate. -/
def MachineMove.RotatesWithin (m : MachineMove) : Prop :=
  ∀ actor id verifier, m.ev = ⟨.rotate actor id verifier, espOk⟩ → ∀ r,
    m.pre.payload.find id = some r → Within r.permissions actor.delegablePermissions

theorem actorCanManage_within {actor : AuthorizationPrincipal} {required : PermissionSet}
    {scope : List UInt8} {requested : PermissionSet}
    (h : actorCanManage actor required scope requested = true) :
    Within requested actor.delegablePermissions ∧ requested &&& machineForbidden = 0 := by
  unfold actorCanManage at h
  simp only [Bool.and_eq_true, decide_eq_true_eq] at h
  exact ⟨h.1.2, h.2⟩

theorem enrollmentAllowed_within {actor : AuthorizationPrincipal} {request : MachineEnrollmentRequest}
    (h : enrollmentAllowed actor request = true) :
    Within request.permissions actor.delegablePermissions ∧
      request.permissions &&& machineForbidden = 0 :=
  actorCanManage_within (Bool.and_eq_true_iff.mp h).2

/-- One step: only a rotation can disclose beyond the actor's delegation. -/
theorem MachineMove.disclosesWithin_iff {m : MachineMove} (h : MachineStep m.pre m.ev m.post)
    (hs : m.pre.payload.Valid) : m.DisclosesWithin ↔ m.RotatesWithin := by
  obtain ⟨s, ⟨op, err⟩, t⟩ := m
  dsimp only at h hs
  rcases h.cases hs with ⟨herr, -⟩ | ⟨rfl, -, -, -, k, old, new, hrewrites, hold, hfind⟩
  · constructor
    · rintro - actor id verifier heq
      cases heq
      exact absurd rfl herr
    · rintro - actor id hok
      exact absurd hok herr
  · have hnew : t.payload.find k = new := by rw [hfind, if_pos rfl]
    cases hrewrites with
    | enrolled hallowed hfresh =>
      constructor
      · exact fun _ actor id verifier heq => nomatch heq
      · rintro - actor id - hdiscloses
        dsimp only [MachineOp.discloses] at hdiscloses
        rw [hfresh] at hdiscloses
        cases hdiscloses
        exact ⟨_, hnew, (enrollmentAllowed_within hallowed).1⟩
    | deleted _ =>
      constructor
      · exact fun _ actor id verifier heq => nomatch heq
      · exact fun _ actor id _ hdiscloses => nomatch hdiscloses
    | updated htarget hchanges =>
      cases hchanges with
      | rotate =>
        cases htarget
        constructor
        · rintro hwithin actor id verifier heq r hr
          cases heq
          obtain ⟨r', hr', hw⟩ := hwithin _ _ rfl rfl
          cases hold.symm.trans hr
          cases hnew.symm.trans hr'
          exact hw
        · rintro hwithin actor id - hdiscloses
          cases hdiscloses
          have hw := hwithin _ _ _ rfl _ hold
          exact ⟨_, hnew, hw⟩
      | _ =>
        constructor
        · exact fun _ actor id verifier heq => nomatch heq
        · exact fun _ actor id _ hdiscloses => nomatch hdiscloses

variable {s : MachineSnapshot} {ms : List MachineMove}

theorem machine_run_valid (h : IsRun MachineStep s ms) (hs : s.payload.Valid) :
    (∀ m ∈ ms, m.pre.payload.Valid ∧ m.post.payload.Valid) ∧ (final s ms).payload.Valid :=
  h.inv (I := fun t => t.payload.Valid) hs fun _ hi hstep => hstep.valid hi

/-- **Delegation over runs.** -/
theorem machine_delegation (h : IsRun MachineStep s ms) (hs : s.payload.Valid) :
    (∀ m ∈ ms, m.DisclosesWithin) ↔ ∀ m ∈ ms, m.RotatesWithin :=
  forall₂_congr fun m hm =>
    MachineMove.disclosesWithin_iff (h.step_of_mem m hm) ((machine_run_valid h hs).1 m hm).1

/-! ## Runs that can be computed -/

/-- A call whose commit goes through if the payload is valid. -/
def machineServe (s : MachineSnapshot) (op : MachineOp) : Option (MachineCall × MachineSnapshot) :=
  match op.edit s with
  | .error err => if err = espOk then none else some (⟨op, err⟩, s)
  | .ok p =>
    if p.valid then some (⟨op, espOk⟩, ⟨p, nextGeneration s.generation⟩)
    else some (⟨op, espErrInvalidState⟩, s)

theorem machineServe_step (s : MachineSnapshot) (op : MachineOp) (call : MachineCall)
    (t : MachineSnapshot) (h : machineServe s op = some (call, t)) :
    MachineStep s call t ∧ call.op = op := by
  unfold machineServe at h
  split at h
  · next err hedit =>
    split at h
    · cases h
    · next herr =>
      cases h
      exact ⟨.refused hedit herr, rfl⟩
  · next p hedit =>
    split at h
    · next hvalid =>
      cases h
      exact ⟨.committed hedit hvalid, rfl⟩
    · cases h
      exact ⟨.failed hedit (by decide), rfl⟩

theorem machineServe_run (s : MachineSnapshot) (ops : List MachineOp) :
    IsRun MachineStep s (traceWhile machineServe s ops) :=
  isRun_traceWhile (fun s op call t h => (machineServe_step s op call t h).1) s ops

theorem op_mem_of_serve {s : MachineSnapshot} {ops : List MachineOp} {m : MachineMove}
    (h : m ∈ traceWhile machineServe s ops) : m.ev.op ∈ ops := by
  obtain ⟨op, hop, heq⟩ := exists_of_traceWhile (R := fun op call => call.op = op)
    (fun s op call t hserve => (machineServe_step s op call t hserve).2) h
  exact heq ▸ hop

/-- The directory after a first boot. -/
def freshMachines : MachineSnapshot := ⟨machineDirectory.empty, 1⟩

theorem freshMachines_valid : freshMachines.payload.Valid :=
  MachinePayload.valid_iff.mp machineDirectory_empty_valid

/-- The console, and a viewer with a custom role that may enroll machines. -/
def consoleActor : AuthorizationPrincipal where
  type := .console
  identifier := strlcpy 37 (asciiBytes "console")
  scope := strlcpy 37 (asciiBytes "*")
  level := .argusPersonnel
  permissions := levelPermissions .argusPersonnel
  delegablePermissions := levelDelegable .argusPersonnel
  credentialVersion := 1
  securityEpoch := 1
  principalRevision := 1
  protectedIdentity := false

def viewerActor : AuthorizationPrincipal where
  type := .human
  identifier := strlcpy 37 (asciiBytes "viewer")
  scope := strlcpy 37 (asciiBytes "*")
  level := .viewer
  permissions := permissionViewStatus ||| permissionEnrollMachines
  delegablePermissions := permissionViewStatus
  credentialVersion := 1
  securityEpoch := 1
  principalRevision := 1
  protectedIdentity := false

/-- A panel that may move the pump. -/
def panelRequest : MachineEnrollmentRequest where
  displayName := strlcpy 49 (asciiBytes "panel")
  clientType := 1
  allowedTransports := 2
  allowedInterfaces := 1
  scope := strlcpy 37 (asciiBytes "*")
  topicScope := strlcpy 97 (asciiBytes "argus")
  apiScope := strlcpy 65 []
  permissions := permissionMotion

/-- The identifier of the panel. -/
def panelIdentifier : List UInt8 := randomIdentifier (.replicate 15 0)

def enrollPanel : MachineOp :=
  .enroll consoleActor panelRequest (.replicate 8 (.replicate 15 0)) (.ok someVerifier)

/-- The console enrolls the panel: the credential it gets is within its delegation. -/
theorem machine_delegation_panel :
    ∃ ms : List MachineMove, IsRun MachineStep freshMachines ms ∧
      ∃ m ∈ ms, m.ev.err = espOk ∧ m.DisclosesWithin := by
  have hrun := machineServe_run freshMachines [enrollPanel]
  have hok : (traceWhile machineServe freshMachines [enrollPanel]).any
      (fun m => m.ev.err = espOk) = true := by decide +kernel
  have hops (m : MachineMove) (hm : m ∈ traceWhile machineServe freshMachines [enrollPanel]) :
      m.ev.op ∈ [enrollPanel] := op_mem_of_serve hm
  generalize traceWhile machineServe freshMachines [enrollPanel] = ms at hrun hok hops
  obtain ⟨m, hm, herr⟩ := List.any_eq_true.mp hok
  refine ⟨ms, hrun, m, hm, of_decide_eq_true herr,
    (machine_delegation hrun freshMachines_valid).mpr (fun n hn => ?_) m hm⟩
  intro actor id verifier heq
  have hop := List.mem_singleton.mp (hops n hn)
  rw [heq] at hop
  cases hop

/-- The viewer rotates the panel's credential and is given what it may not delegate. -/
theorem machine_delegation_viewer :
    ¬ ∀ (s : MachineSnapshot) (ms : List MachineMove), s.payload.Valid → IsRun MachineStep s ms →
      ∀ m ∈ ms, m.DisclosesWithin := by
  intro h
  have hrun := machineServe_run freshMachines
    [enrollPanel, .rotate viewerActor panelIdentifier (.ok someVerifier)]
  have hbad : (traceWhile machineServe freshMachines
      [enrollPanel, .rotate viewerActor panelIdentifier (.ok someVerifier)]).any (fun m =>
        m.ev.err = espOk && m.ev.op.discloses m.pre = some (viewerActor, panelIdentifier) &&
          (m.post.payload.find panelIdentifier).all fun r =>
            ¬ Within r.permissions viewerActor.delegablePermissions) = true := by decide +kernel
  generalize traceWhile machineServe freshMachines
    [enrollPanel, .rotate viewerActor panelIdentifier (.ok someVerifier)] = ms at hrun hbad
  obtain ⟨m, hm, hbad⟩ := List.any_eq_true.mp hbad
  rw [Bool.and_eq_true, Bool.and_eq_true, decide_eq_true_eq, decide_eq_true_eq] at hbad
  obtain ⟨⟨herr, hdiscloses⟩, hall⟩ := hbad
  obtain ⟨r, hr, hwithin⟩ := h _ ms freshMachines_valid hrun m hm _ _ herr hdiscloses
  rw [hr] at hall
  exact of_decide_eq_true hall hwithin

/-! ## Revocation -/

section Steps

variable {s t : MachineSnapshot} {call : MachineCall}

/-- A revoked record is deleted or stays revoked with its permissions. -/
theorem MachineStep.revoked (h : MachineStep s call t) (hs : s.payload.Valid) {id : List UInt8}
    {r : MachineRecord} (hr : s.payload.find id = some r) (hrevoked : r.revoked ≠ 0) :
    (∃ actor, call = ⟨.delete actor id, espOk⟩) ∨
      ∃ r', t.payload.find id = some r' ∧ r'.revoked ≠ 0 ∧ r'.permissions = r.permissions := by
  obtain ⟨op, err⟩ := call
  rcases h.cases hs with ⟨-, rfl⟩ | ⟨rfl, -, -, -, k, old, new, hrewrites, hold, hfind⟩
  · exact .inr ⟨r, hr, hrevoked, rfl⟩
  · by_cases hk : id = k
    · subst hk
      have hsame := hold.symm.trans hr
      have hnew : t.payload.find id = new := by rw [hfind, if_pos rfl]
      cases hrewrites with
      | enrolled _ _ => cases hsame
      | deleted _ => exact .inl ⟨_, rfl⟩
      | updated htarget hchanges =>
        cases hsame
        refine .inr ⟨_, hnew, ?_⟩
        cases hchanges with
        | rotate => exact ⟨hrevoked, rfl⟩
        | enable h0 => exact absurd h0 hrevoked
        | disable => exact ⟨hrevoked, rfl⟩
        | setPermissions _ h0 => exact absurd h0 hrevoked
        | revoke => exact ⟨(by decide : (1 : UInt8) ≠ 0), rfl⟩
        | quarantine => exact ⟨hrevoked, rfl⟩
    · refine .inr ⟨r, ?_, hrevoked, rfl⟩
      rw [hfind, if_neg hk]
      exact hr

theorem MachineRecord.disabled_of_revoked {r : MachineRecord} (h : r.valid = true)
    (hrevoked : r.revoked ≠ 0) : r.enabled = 0 := by
  by_contra hen
  simp [MachineRecord.valid, hrevoked, hen] at h

theorem MachinePayload.Valid.find_iff {p : MachinePayload} (h : p.Valid) {id : List UInt8}
    {r : MachineRecord} : p.find id = some r ↔ r ∈ p.entries ∧ r.id = id :=
  Packed.get?_eq_some h.keyed

/-- The permissions of a record are those it had, or hold nothing administrative. -/
theorem MachineStep.permissions (h : MachineStep s call t) (hs : s.payload.Valid) {r : MachineRecord}
    (hr : r ∈ t.payload.entries) :
    r.permissions &&& machineForbidden = 0 ∨
      ∃ old ∈ s.payload.entries, old.id = r.id ∧ old.permissions = r.permissions := by
  obtain ⟨op, err⟩ := call
  rcases h.cases hs with ⟨-, rfl⟩ | ⟨-, -, hvalid, -, k, old, new, hrewrites, hold, hfind⟩
  · exact .inr ⟨r, hr, rfl, rfl⟩
  · have hfound := hvalid.find_iff.mpr ⟨hr, rfl⟩
    rw [hfind] at hfound
    split at hfound
    · cases hrewrites with
      | enrolled hallowed _ =>
        cases hfound
        exact .inl (enrollmentAllowed_within hallowed).2
      | deleted _ => cases hfound
      | @updated op old new htarget hchanges =>
        obtain rfl := Option.some.inj hfound
        have hmem := (hs.find_iff.mp hold).1
        cases hchanges with
        | setPermissions hmanage _ => exact .inl (actorCanManage_within hmanage).2
        | _ => exact .inr ⟨_, hmem, rfl, rfl⟩
    · obtain ⟨hmem, -⟩ := hs.find_iff.mp hfound
      exact .inr ⟨r, hmem, rfl, rfl⟩

/-- A delete takes the record it names and no other. -/
theorem MachineStep.deletes {actor : AuthorizationPrincipal} {id : List UInt8}
    (h : MachineStep s ⟨.delete actor id, espOk⟩ t) (hs : s.payload.Valid) :
    ∃ r, r.id = id ∧ s.payload.entries.Perm (r :: t.payload.entries) := by
  rcases h.cases hs with ⟨herr, -⟩ | ⟨-, -, -, heffect, -⟩
  · exact absurd rfl herr
  · generalize hp : t.payload = p at heffect
    generalize hop : MachineOp.delete actor id = op at heffect
    cases heffect with
    | enrolled _ _ _ => cases hop
    | @updated _ i r _ _ hchanges => cases hchanges <;> cases hop
    | @deleted _ i hlt _ =>
      cases hop
      refine ⟨_, rfl, ?_⟩
      unfold MachinePayload.entries
      dsimp only
      rw [pred_toNat (by omega)]
      exact Packed.perm_cons_eraseSwap MachineRecord.zero hlt hs.count

/-- A revoked record authenticates nobody. -/
theorem machineAuthenticate_revoked {s : MachineSnapshot} {id : List UInt8} {r : MachineRecord}
    (hr : s.payload.find id = some r) (hrevoked : r.revoked ≠ 0) (clientId password : List UInt8)
    (receivingInterface : UInt8) (refusal : Option MachineAuthResult) (verify : Except EspErr Bool)
    (principal : MachineServicePrincipal) :
    machineAuthenticate s clientId id password receivingInterface refusal verify ≠ .ok principal := by
  intro h
  obtain ⟨-, r', hr', -, h0, -⟩ := machineAuthenticate_ok h
  cases hr.symm.trans hr'
  exact hrevoked h0

end Steps

/-- **Revocation is final**, whatever comes until the record is deleted. -/
theorem machine_run_revoked (h : IsRun MachineStep s ms) (hs : s.payload.Valid) {id : List UInt8}
    {r : MachineRecord} (hr : s.payload.find id = some r) (hrevoked : r.revoked ≠ 0)
    (hkept : ∀ m ∈ ms, ∀ actor, m.ev ≠ ⟨.delete actor id, espOk⟩) :
    ∃ r', (final s ms).payload.find id = some r' ∧ r'.revoked ≠ 0 ∧ r'.permissions = r.permissions := by
  have hinv := h.inv_of (K := fun m => ∀ actor, m.ev ≠ ⟨.delete actor id, espOk⟩)
    (I := fun t => t.payload.Valid ∧ ∃ r', t.payload.find id = some r' ∧ r'.revoked ≠ 0 ∧
      r'.permissions = r.permissions) ⟨hs, r, hr, hrevoked, rfl⟩ hkept ?_
  · exact hinv.2.2
  · rintro m ⟨hv, r', hr', hrevoked', hperm⟩ hstep hk
    refine ⟨hstep.valid hv, ?_⟩
    rcases hstep.revoked hv hr' hrevoked' with ⟨actor, hdelete⟩ | ⟨r'', hr'', hrevoked'', hperm'⟩
    · exact absurd hdelete (hk actor)
    · exact ⟨r'', hr'', hrevoked'', hperm'.trans hperm⟩

/-- **The life of a record over runs.** -/
theorem machine_lifecycle (h : IsRun MachineStep s ms) (hs : s.payload.Valid) :
    (∀ m ∈ ms, m.post.payload.Valid) ∧
    (∀ l k id r, ms = l ++ k → (final s l).payload.find id = some r → r.revoked ≠ 0 →
      (∀ m ∈ k, ∀ actor, m.ev ≠ ⟨.delete actor id, espOk⟩) →
      ∃ r', (final s ms).payload.find id = some r' ∧ r'.revoked ≠ 0 ∧ r'.enabled = 0 ∧
        r'.permissions = r.permissions ∧
        ∀ clientId password receivingInterface refusal verify principal,
          machineAuthenticate (final s ms) clientId id password receivingInterface refusal verify ≠
            .ok principal) ∧
    (∀ m ∈ ms, ∀ r ∈ m.post.payload.entries, r.permissions &&& machineForbidden = 0 ∨
      ∃ old ∈ m.pre.payload.entries, old.id = r.id ∧ old.permissions = r.permissions) ∧
    (∀ m ∈ ms, ∀ actor id, m.ev = ⟨.delete actor id, espOk⟩ →
      ∃ r, r.id = id ∧ m.pre.payload.entries.Perm (r :: m.post.payload.entries)) := by
  have hvalid := machine_run_valid h hs
  refine ⟨fun m hm => (hvalid.1 m hm).2, ?_,
    fun m hm r hr => (h.step_of_mem m hm).permissions (hvalid.1 m hm).1 hr, fun m hm actor id hev => ?_⟩
  · rintro l k id r rfl hr hrevoked hkept
    obtain ⟨hl, hk⟩ := (isRun_append s l k).mp h
    obtain ⟨r', hr', hrevoked', hperm⟩ :=
      machine_run_revoked hk (machine_run_valid hl hs).2 hr hrevoked hkept
    rw [← final_append] at hr'
    refine ⟨r', hr', hrevoked', ?_, hperm, machineAuthenticate_revoked hr' hrevoked'⟩
    exact MachineRecord.disabled_of_revoked
      (hvalid.2.machines r' (hvalid.2.find_iff.mp hr').1) hrevoked'
  · have hstep := h.step_of_mem m hm
    rw [hev] at hstep
    exact hstep.deletes (hvalid.1 m hm).1

/-- The panel is enrolled. -/
theorem machine_lifecycle_panel :
    ∃ ms : List MachineMove, IsRun MachineStep freshMachines ms ∧
      ∃ m ∈ ms, m.ev.err = espOk ∧ m.post.payload.Valid := by
  have hrun := machineServe_run freshMachines [enrollPanel]
  have hok : (traceWhile machineServe freshMachines [enrollPanel]).any
      (fun m => m.ev.err = espOk) = true := by decide +kernel
  generalize traceWhile machineServe freshMachines [enrollPanel] = ms at hrun hok
  obtain ⟨m, hm, herr⟩ := List.any_eq_true.mp hok
  exact ⟨ms, hrun, m, hm, of_decide_eq_true herr,
    (machine_lifecycle hrun freshMachines_valid).1 m hm⟩

/-- A revoked record is given a new credential. -/
theorem revoked_rotated :
    ¬ ∀ (s : MachineSnapshot) (ms : List MachineMove), s.payload.Valid → IsRun MachineStep s ms →
      ∀ m ∈ ms, ∀ id r, m.ev.op.target? = some id → m.pre.payload.find id = some r →
        r.revoked ≠ 0 → m.ev.err = espOk → ∃ actor, m.ev.op = .delete actor id := by
  intro h
  have hrun := machineServe_run freshMachines [enrollPanel, .revoke consoleActor panelIdentifier,
    .rotate consoleActor panelIdentifier (.ok someVerifier)]
  have hbad : (traceWhile machineServe freshMachines [enrollPanel,
      .revoke consoleActor panelIdentifier,
      .rotate consoleActor panelIdentifier (.ok someVerifier)]).any (fun m =>
        m.ev.err = espOk && (m.pre.payload.find panelIdentifier).any (fun r => r.revoked ≠ 0) &&
          match m.ev.op with
          | .rotate _ id _ => id = panelIdentifier
          | _ => false) = true := by decide +kernel
  generalize traceWhile machineServe freshMachines [enrollPanel,
    .revoke consoleActor panelIdentifier,
    .rotate consoleActor panelIdentifier (.ok someVerifier)] = ms at hrun hbad
  obtain ⟨⟨s, ⟨op, err⟩, t⟩, hm, hbad⟩ := List.any_eq_true.mp hbad
  rw [Bool.and_eq_true, Bool.and_eq_true, decide_eq_true_eq, Option.any_eq_true] at hbad
  obtain ⟨⟨rfl, r, hr, hrevoked⟩, hop⟩ := hbad
  dsimp only at hop hr
  split at hop
  · next actor id verifier =>
    obtain rfl := of_decide_eq_true hop
    obtain ⟨actor', hdelete⟩ := h _ ms freshMachines_valid hrun _ hm _ r rfl hr
      (of_decide_eq_true hrevoked) rfl
    cases hdelete
  · cases hop

end Argus
