import ArgusPump.MqttRuns

/-!
# The retained authority snapshot

`publish_authority_state` of `main/argus_mqtt_runtime.c` and the tasks that call it: the
runtime task after a message, a client task in the disconnect callback, the status task
after a tick.  A caller changes the session core under the mutex, sets
`s_authority_reason`, copies the core under the mutex again and publishes six values one
by one.

    no value from an older copy over a newer one, reasons set in the order of the
      changes → at rest all six are of the latest core             (snapshot_coherent)
    two callers, the earlier copy published last → they are not     (snapshot_overwritten)

Left out: publications that fail, the other topics, a restart of the broker.
-/

namespace Argus

open Interact SessionCore

/-! ## The six values -/

inductive AuthorityTopic
  | coreLeaseStatus | authorityReason | authorityProfile | controlOwner | authorityEpoch
  | localControlStatus
deriving DecidableEq

/-- What `publish_authority_state` reads before it publishes, the reason apart. -/
structure AuthorityReading where
  core : SessionCore
  authorityProfile : UInt8
  coreWindowOpen : Bool
  nowMs : UInt64
deriving DecidableEq

def authorityProfileName (authorityProfile : UInt8) : Bytes :=
  if authorityProfile = authorityProfileArguscorePreferred then txt "ARGUSCORE_PREFERRED"
  else txt "STANDALONE_HMI"

def AuthorityReading.value (r : AuthorityReading) (reason : Bytes) : AuthorityTopic → Bytes
  | .coreLeaseStatus =>
    (authorityStatusFromCore r.core r.authorityProfile r.coreWindowOpen r.nowMs).1
  | .authorityReason => reason
  | .authorityProfile => authorityProfileName r.authorityProfile
  | .controlOwner => ownerKind r.core
  | .authorityEpoch => txt (toString r.core.authorityEpoch.toNat)
  | .localControlStatus =>
    (authorityStatusFromCore r.core r.authorityProfile r.coreWindowOpen r.nowMs).2

/-- In the order of their publication. -/
def authorityTopics : List AuthorityTopic :=
  [.coreLeaseStatus, .authorityReason, .authorityProfile, .controlOwner, .authorityEpoch,
    .localControlStatus]

/-! ## The reasons -/

def authorityReasonForRequest (result : AuthorityResult) (wasOnlineBefore : Bool)
    (requesterClientType authorityProfile : UInt8) : Option Bytes :=
  if result = .granted then
    if requesterClientType = machineClientArgusCommand then some (txt "CORE_ACQUISITION")
    else if authorityProfile = authorityProfileStandaloneHmi then
      some (txt "STANDALONE_ACQUISITION")
    else some (txt "OPERATOR_TRANSFER")
  else if result = .alreadyHeld ∧ ¬ wasOnlineBefore then some (txt "CORE_REACQUISITION")
  else none

def authorityReasonForRelease (released : Bool) : Option Bytes :=
  if released then some (txt "RELEASED") else none

def authorityReasonForDisconnect : Bytes := txt "TRANSPORT_LOST"

def authorityReasonForExpiry : Bytes := txt "CORE_LEASE_EXPIRED"

/-- The reason `handle_authority_request` sets, and whether it publishes the state. -/
def authorityPublication (core : SessionCore) (message : Message) (authorityProfile : UInt8)
    (out : AuthorityOutcome) : Option Bytes × Bool :=
  (match out.stage with
    | .releaseAccepted => authorityReasonForRelease true
    | .releaseNotOwner => authorityReasonForRelease false
    | .requestEvaluated =>
      authorityReasonForRequest out.requestResult (core.link = .online)
        message.principal.clientType authorityProfile
    | _ => none,
   out.stateChanged)

/-- In `handle_heartbeat`: only when the link comes back. -/
def heartbeatPublication (core : SessionCore) (out : HeartbeatOutcome) : Option Bytes × Bool :=
  if out = .handled espOk ∧ core.link ≠ .online then (some (txt "CORE_REACQUISITION"), true)
  else (none, false)

def tickPublication (stale : Bool) : Option Bytes × Bool :=
  if stale then (some authorityReasonForExpiry, true) else (none, false)

/-- In `broker_client_cb`: without a lease the reason stays. -/
def disconnectPublication (changed : Bool) (after : SessionCore) : Option Bytes × Bool :=
  if changed then
    (if after.leaseMachineId.bytes ≠ [] then some authorityReasonForDisconnect else none, true)
  else (none, false)

/-- What the caller of an operation on the core does after it. -/
def publication (core : SessionCore) (act : SessionAct) (after : SessionCore)
    (out : SessionOutcome) : Option Bytes × Bool :=
  match act, out with
  | .authority message _ authorityProfile _ _, .authority out =>
    authorityPublication core message authorityProfile out
  | _, .heartbeat out => heartbeatPublication core out
  | _, .tick stale => tickPublication stale
  | _, .disconnect changed => disconnectPublication changed after
  | _, _ => (none, false)

/-! ## The callers -/

inductive PublishTask
  | runtime
  | client (connectionId : UInt64)
  | status
deriving DecidableEq

def SessionAct.task : SessionAct → PublishTask
  | .authority _ _ _ _ _ | .heartbeat _ | .command _ _ _ _ => .runtime
  | .tick => .status
  | .disconnect connectionId => .client connectionId

inductive PublishPhase
  | idle
  /-- The core has changed, for the reason to be set. -/
  | changed (reason : Bytes) (change : Nat)
  /-- Before the copy of the core. -/
  | copying
  | publishing (reading : AuthorityReading) (copy : Nat) (rest : List AuthorityTopic)
deriving DecidableEq

def PublishPhase.beforeCopy : PublishPhase → Bool
  | .changed _ _ | .copying => true
  | .idle | .publishing _ _ _ => false

/-- Not in the source: which copy and which change the values are from. -/
structure PublishLedger where
  copies : Nat
  /-- The last copy and who took it. -/
  last : Option (PublishTask × AuthorityReading)
  copyOf : AuthorityTopic → Nat
  /-- The changes that have a reason, the last one's reason. -/
  changes : Nat
  lastReason : Bytes
  /-- The change `s_authority_reason` is from. -/
  reasonOf : Nat

structure SnapshotState where
  session : Session
  /-- `s_authority_reason`. -/
  reason : Bytes
  retained : AuthorityTopic → Option Bytes
  phase : PublishTask → PublishPhase
  ledger : PublishLedger

namespace SnapshotState

def start (session : Bytes) : SnapshotState where
  session := .start session
  reason := txt "STARTUP"
  retained := fun _ => none
  phase := fun _ => .idle
  ledger := ⟨0, none, fun _ => 0, 0, txt "STARTUP", 0⟩

/-- The core is changed by a caller that will publish. -/
def begin (s : SnapshotState) (p : PublishTask) (session : Session) : Option Bytes → SnapshotState
  | some reason => { s with
      session := session
      phase := Function.update s.phase p (.changed reason (s.ledger.changes + 1))
      ledger := { s.ledger with changes := s.ledger.changes + 1, lastReason := reason } }
  | none => { s with session := session, phase := Function.update s.phase p .copying }

def setReason (s : SnapshotState) (p : PublishTask) (reason : Bytes) (change : Nat) :
    SnapshotState :=
  { s with
    reason := reason
    phase := Function.update s.phase p .copying
    ledger := { s.ledger with reasonOf := max s.ledger.reasonOf change } }

def copy (s : SnapshotState) (p : PublishTask) (authorityProfile : UInt8) (coreWindowOpen : Bool)
    (nowMs : UInt64) : SnapshotState :=
  let reading : AuthorityReading := ⟨s.session.core, authorityProfile, coreWindowOpen, nowMs⟩
  { s with
    phase := Function.update s.phase p
      (.publishing reading (s.ledger.copies + 1) authorityTopics)
    ledger := { s.ledger with copies := s.ledger.copies + 1, last := some (p, reading) } }

def publish (s : SnapshotState) (p : PublishTask) (reading : AuthorityReading) (copy : Nat)
    (topic : AuthorityTopic) (rest : List AuthorityTopic) : SnapshotState :=
  { s with
    retained := Function.update s.retained topic (some (reading.value s.reason topic))
    phase := Function.update s.phase p
      (if rest = [] then .idle else .publishing reading copy rest)
    ledger := { s.ledger with
      copyOf := Function.update s.ledger.copyOf topic (max (s.ledger.copyOf topic) copy) } }

end SnapshotState

/-! ## Steps -/

inductive PublishAct
  | session (ev : SessionEvent)
  /-- The runtime task publishes the baseline. -/
  | baseline
  /-- The status task sees the acquisition window closed. -/
  | fallback
  | setReason (p : PublishTask)
  | copy (p : PublishTask) (authorityProfile : UInt8) (coreWindowOpen : Bool) (nowMs : UInt64)
  | publish (p : PublishTask)

def PublishAct.task : PublishAct → PublishTask
  | .session ev => ev.act.task
  | .baseline => .runtime
  | .fallback => .status
  | .setReason p | .copy p _ _ _ | .publish p => p

def SnapshotState.next (sha256 : Bytes → Option Digest) (s : SnapshotState) :
    PublishAct → Option SnapshotState
  | .session ev =>
    if s.phase ev.act.task = .idle then
      let r := s.session.handle sha256 ev
      let p := publication s.session.core ev.act r.2.core r.1
      some (if p.2 then s.begin ev.act.task r.2 p.1 else { s with session := r.2 })
    else none
  | .baseline =>
    if s.phase .runtime = .idle then some (s.begin .runtime s.session none) else none
  | .fallback =>
    if s.phase .status = .idle ∧ s.session.core.leaseMachineId.bytes = [] then
      some (s.begin .status s.session none)
    else none
  | .setReason p =>
    match s.phase p with
    | .changed reason change => some (s.setReason p reason change)
    | _ => none
  | .copy p authorityProfile coreWindowOpen nowMs =>
    match s.phase p with
    | .copying => some (s.copy p authorityProfile coreWindowOpen nowMs)
    | _ => none
  | .publish p =>
    match s.phase p with
    | .publishing reading copy (topic :: rest) => some (s.publish p reading copy topic rest)
    | _ => none

def snapshotStep (sha256 : Bytes → Option Digest) (s : SnapshotState) (act : PublishAct)
    (s' : SnapshotState) : Prop :=
  s.next sha256 act = some s'

/-- The moves on a list of acts, up to the first that has to wait. -/
def snapshotTrace (sha256 : Bytes → Option Digest) :
    SnapshotState → List PublishAct → List (Move SnapshotState PublishAct) :=
  traceWhile fun s act => (s.next sha256 act).map fun s' => (act, s')

theorem isRun_snapshotTrace (sha256 : Bytes → Option Digest) (s : SnapshotState)
    (acts : List PublishAct) : IsRun (snapshotStep sha256) s (snapshotTrace sha256 s acts) := by
  refine isRun_traceWhile (fun s act ev s' h => ?_) s acts
  obtain ⟨t, hnext, heq⟩ := Option.map_eq_some_iff.mp h
  cases heq
  exact hnext

/-! ## What is published -/

/-- Some time of day makes of `core` what was read. -/
def Shows (reading : AuthorityReading) (core : SessionCore) : Prop :=
  ∃ nowMs, ∀ reason topic,
    ({ reading with core := core, nowMs := nowMs }).value reason topic = reading.value reason topic

/-- At rest the six retained values are those of the latest core, with the profile and the
window of the last copy, and the reason of the latest change. -/
def Coherent (s : SnapshotState) : Prop :=
  (∀ p, s.phase p = .idle) → ∀ p reading, s.ledger.last = some (p, reading) →
    ∃ nowMs, ∀ topic, s.retained topic =
      some (({ reading with core := s.session.core, nowMs := nowMs }).value
        s.ledger.lastReason topic)

/-- No reason over one of a later change, no value over one from a later copy, unless it is
the same; the online holder renews with the type on record. -/
def inOrder (v : Move SnapshotState PublishAct) : Bool :=
  match v.ev with
  | .setReason p =>
    match v.pre.phase p with
    | .changed reason change => v.pre.ledger.reasonOf ≤ change || v.pre.reason = reason
    | _ => true
  | .publish p =>
    match v.pre.phase p with
    | .publishing reading copy (topic :: _) =>
      v.pre.ledger.copyOf topic ≤ copy ||
        v.pre.retained topic = some (reading.value v.pre.reason topic)
    | _ => true
  | .session ⟨_, .heartbeat message⟩ =>
    v.pre.session.core.link ≠ .online ||
      v.pre.session.core.leaseMachineId ≠ message.principal.identifier ||
      v.pre.session.core.leaseClientType = message.principal.clientType
  | _ => true

theorem Shows.refl (reading : AuthorityReading) : Shows reading reading.core :=
  ⟨reading.nowMs, fun _ _ => rfl⟩

/-- A renewal moves the deadline only. -/
theorem Shows.renew {reading : AuthorityReading} {c d : SessionCore} (h : Shows reading c)
    (hid : d.leaseMachineId = c.leaseMachineId) (htype : d.leaseClientType = c.leaseClientType)
    (hlink : d.link = c.link) (hepoch : d.authorityEpoch = c.authorityEpoch) :
    Shows reading d := by
  obtain ⟨nowMs, hvalue⟩ := h
  -- the time at which the lease is as old as it was
  refine ⟨nowMs - c.lastHeartbeatMs + d.lastHeartbeatMs, fun reason topic => ?_⟩
  rw [← hvalue reason topic]
  have hage : nowMs - c.lastHeartbeatMs + d.lastHeartbeatMs - d.lastHeartbeatMs =
      nowMs - c.lastHeartbeatMs := UInt64.add_sub_cancel _ _
  have hstatus : ∀ profile windowOpen,
      authorityStatusFromCore d profile windowOpen
        (nowMs - c.lastHeartbeatMs + d.lastHeartbeatMs) =
      authorityStatusFromCore c profile windowOpen nowMs := by
    intro profile windowOpen
    unfold authorityStatusFromCore
    rw [hid, htype, hlink, hage]
  unfold AuthorityReading.value
  cases topic with
  | coreLeaseStatus => exact congrArg Prod.fst (hstatus _ _)
  | authorityReason => rfl
  | authorityProfile => rfl
  | controlOwner =>
    show ownerKind d = ownerKind c
    unfold ownerKind
    rw [hid, htype]
  | authorityEpoch =>
    show txt (toString d.authorityEpoch.toNat) = _
    rw [hepoch]
  | localControlStatus => exact congrArg Prod.snd (hstatus _ _)

/-- Nothing to give a reason for. -/
def AuthorityOutcome.silent (out : AuthorityOutcome) : Prop :=
  out.stage ≠ .releaseAccepted ∧ (out.stage = .requestEvaluated →
    out.requestResult ≠ .granted ∧ out.requestResult ≠ .alreadyHeld)

theorem arbitrate_unchanged {c : SessionCore} {message : Message} {release : Bool}
    {ctx : AdmitContext} {req : AuthorityRequest}
    (h : (arbitrate c message release ctx req).1.stateChanged = false) :
    (arbitrate c message release ctx req).2.2.2 = c ∧
      (arbitrate c message release ctx req).1.silent := by
  simp only [arbitrate] at h ⊢
  split at h
  · next hrelease =>
    rw [if_pos hrelease]
    split at h
    · next hepoch =>
      rw [if_pos hepoch]
      exact ⟨rfl, by simp, by simp⟩
    · next hepoch =>
      rw [if_neg hepoch]
      rcases releaseAuthority_cases c message.principal.identifier with ⟨hr, -⟩ | hr
      · rw [show (c.releaseAuthority message.principal.identifier).1 = false from h] at hr
        cases hr
      · rw [hr]
        exact ⟨rfl, by simp, by simp⟩
  · next hrequest =>
    rw [if_neg hrequest]
    split at h
    · next hepoch =>
      rw [if_pos hepoch]
      exact ⟨rfl, by simp, by simp⟩
    · next hepoch =>
      rw [if_neg hepoch]
      rcases requestAuthorityWithState_cases c message.connectionId message.principal.identifier
        message.principal.clientType ctx.authorityProfile ctx.coreWindowOpen ctx.machineRunning
        req.authorityEpoch ctx.nowMs with ⟨hr, -⟩ | ⟨hr, -⟩ | ⟨d, hgranted, hheld, hr⟩
      · rw [hr] at h
        cases h
      · rw [hr] at h
        cases h
      · rw [hr]
        exact ⟨rfl, by simp, fun _ => ⟨hgranted, hheld⟩⟩

theorem authorityAdmit_unchanged {sha256 : Bytes → Option Digest} {s : Session}
    {message : Message} {release : Bool} {ctx : AdmitContext}
    (h : (authorityAdmit sha256 s message release ctx).1.stateChanged = false) :
    (authorityAdmit sha256 s message release ctx).2.core = s.core ∧
      (authorityAdmit sha256 s message release ctx).1.silent := by
  unfold authorityAdmit at h ⊢
  simp only [] at h ⊢
  split
  · exact ⟨rfl, by simp, by simp⟩
  · next hretain =>
    rw [if_neg hretain] at h
    split
    · exact ⟨rfl, by simp, by simp⟩
    · next hqos =>
      rw [if_neg hqos] at h
      split
      · exact ⟨rfl, by simp, by simp⟩
      · next req hdecode =>
        rw [hdecode] at h
        dsimp only at h
        split
        · exact ⟨rfl, by simp, by simp⟩
        · next hsession =>
          rw [if_neg hsession] at h
          split
          · split
            · exact ⟨rfl, by simp, by simp⟩
            · exact ⟨rfl, by simp, by simp⟩
          · next hmiss =>
            rw [hmiss] at h
            exact arbitrate_unchanged h

theorem authorityPublication_silent {core : SessionCore} {message : Message} {profile : UInt8}
    {out : AuthorityOutcome} (h : out.silent) :
    (authorityPublication core message profile out).1 = none := by
  obtain ⟨haccepted, hevaluated⟩ := h
  unfold authorityPublication
  dsimp only
  split
  · next hstage => exact absurd hstage haccepted
  · rfl
  · next hstage =>
    obtain ⟨hgranted, hheld⟩ := hevaluated hstage
    unfold authorityReasonForRequest
    rw [if_neg hgranted, if_neg fun h => hheld h.1]
  · rfl

/-- What `handle_heartbeat` does to the lease, published or not. -/
theorem handleHeartbeat_view {c : SessionCore} {message : Message} {nowMs : UInt64}
    {reading : AuthorityReading}
    (hquiet : (handleHeartbeat c message nowMs).1 = .handled espOk → c.link = .online)
    (htype : c.link = .online → c.leaseMachineId = message.principal.identifier →
      c.leaseClientType = message.principal.clientType)
    (h : Shows reading c) : Shows reading (handleHeartbeat c message nowMs).2 := by
  unfold handleHeartbeat at hquiet ⊢
  split
  · exact h
  · next hpolicy =>
    rw [if_neg hpolicy] at hquiet
    split
    · exact h
    · next heartbeat hdecode =>
      rw [hdecode] at hquiet
      dsimp only at hquiet
      split
      · next hholder =>
        rw [if_pos hholder] at hquiet
        have hid := Identifier.ext hholder.2
        unfold acceptHeartbeat at hquiet ⊢
        split
        · exact h
        · next hbad =>
          rw [if_neg hbad] at hquiet
          split
          · exact h
          · next hother =>
            rw [if_neg hother] at hquiet
            split
            · exact h
            · next hreplay =>
              rw [if_neg hreplay] at hquiet
              have hrecord : c.leaseRecordHolder message.principal.identifier
                  message.principal.clientType = c := by
                unfold leaseRecordHolder
                rw [← hid, if_pos hholder.1, ← htype (hquiet rfl) hid]
              rw [hrecord]
              exact h.renew rfl rfl (hquiet rfl).symm rfl
      · exact h

/-- **An operation that is not published** shows nothing new, and has no reason. -/
theorem handle_unpublished {sha256 : Bytes → Option Digest} {s : Session} {ev : SessionEvent}
    (h : (publication s.core ev.act (s.handle sha256 ev).2.core (s.handle sha256 ev).1).2 = false) :
    (publication s.core ev.act (s.handle sha256 ev).2.core (s.handle sha256 ev).1).1 = none ∧
      ∀ reading, (∀ message, ev.act = .heartbeat message → s.core.link = .online →
          s.core.leaseMachineId = message.principal.identifier →
          s.core.leaseClientType = message.principal.clientType) →
        Shows reading s.core → Shows reading (s.handle sha256 ev).2.core := by
  obtain ⟨now, act⟩ := ev
  cases act with
  | authority message release profile windowOpen running =>
    obtain ⟨hcore, hsilent⟩ := authorityAdmit_unchanged h
    refine ⟨authorityPublication_silent hsilent, fun reading _ hshows => ?_⟩
    show Shows reading (authorityAdmit sha256 s message release _).2.core
    rw [hcore]
    exact hshows
  | heartbeat message =>
    have hquiet : ¬ ((handleHeartbeat s.core message now).1 = .handled espOk ∧
        s.core.link ≠ .online) := by
      intro hloud
      have h : (heartbeatPublication s.core (handleHeartbeat s.core message now).1).2 = false := h
      unfold heartbeatPublication at h
      rw [if_pos hloud] at h
      cases h
    refine ⟨congrArg Prod.fst (if_neg hquiet), fun reading htype hshows => ?_⟩
    refine handleHeartbeat_view (fun hok => ?_) (htype message rfl) hshows
    by_contra hlink
    exact hquiet ⟨hok, hlink⟩
  | command message action maxRpm routed =>
    refine ⟨rfl, fun reading _ hshows => ?_⟩
    show Shows reading (handleCommand s.core message action maxRpm routed).2
    rcases handleCommand_core s.core message action maxRpm routed with hc | ⟨_, _, _, hc⟩
    · rw [hc]
      exact hshows
    · rw [hc]
      exact hshows.renew rfl rfl rfl rfl
  | tick =>
    have h : (tickPublication (s.core.tick now).1).2 = false := h
    show (tickPublication (s.core.tick now).1).1 = none ∧
      ∀ reading, _ → _ → Shows reading (s.core.tick now).2
    rcases tick_cases s.core now with ⟨hstale, -⟩ | hsame
    · rw [hstale] at h
      cases h
    · rw [hsame]
      exact ⟨rfl, fun _ _ hshows => hshows⟩
  | disconnect conn =>
    have h : (disconnectPublication (s.core.disconnect conn).1 (s.core.disconnect conn).2).2 =
        false := h
    show (disconnectPublication (s.core.disconnect conn).1 (s.core.disconnect conn).2).1 = none ∧
      ∀ reading, _ → _ → Shows reading (s.core.disconnect conn).2
    unfold SessionCore.disconnect at h ⊢
    split
    · exact ⟨rfl, fun _ _ hshows => hshows⟩
    · next hbound =>
      rw [if_neg hbound] at h
      cases h

/-! ## What a step can do -/

inductive SnapshotMove (s : SnapshotState) : PublishAct → SnapshotState → Prop
  | quiet (ev : SessionEvent) (session : Session)
      (hquiet : ∀ reading, (∀ message, ev.act = .heartbeat message →
          s.session.core.link = .online →
          s.session.core.leaseMachineId = message.principal.identifier →
          s.session.core.leaseClientType = message.principal.clientType) →
        Shows reading s.session.core → Shows reading session.core) :
      SnapshotMove s (.session ev) { s with session := session }
  | begin (act : PublishAct) (p : PublishTask) (session : Session) (reason : Option Bytes)
      (hact : act.task = p) (hidle : s.phase p = .idle) :
      SnapshotMove s act (s.begin p session reason)
  | setReason (p : PublishTask) (reason : Bytes) (change : Nat)
      (hphase : s.phase p = .changed reason change) :
      SnapshotMove s (.setReason p) (s.setReason p reason change)
  | copy (p : PublishTask) (authorityProfile : UInt8) (coreWindowOpen : Bool) (nowMs : UInt64)
      (hphase : s.phase p = .copying) :
      SnapshotMove s (.copy p authorityProfile coreWindowOpen nowMs)
        (s.copy p authorityProfile coreWindowOpen nowMs)
  | publish (p : PublishTask) (reading : AuthorityReading) (copy : Nat) (topic : AuthorityTopic)
      (rest : List AuthorityTopic) (hphase : s.phase p = .publishing reading copy (topic :: rest)) :
      SnapshotMove s (.publish p) (s.publish p reading copy topic rest)

theorem snapshotStep_move {sha256 : Bytes → Option Digest} {s s' : SnapshotState}
    {act : PublishAct} (h : snapshotStep sha256 s act s') : SnapshotMove s act s' := by
  unfold snapshotStep SnapshotState.next at h
  cases act with
  | session ev =>
    dsimp only at h
    split at h
    · next hidle =>
      cases h
      split
      · exact .begin _ _ _ _ rfl hidle
      · next hquiet => exact .quiet ev _ (handle_unpublished (Bool.eq_false_iff.mpr hquiet)).2
    · cases h
  | baseline =>
    dsimp only at h
    split at h
    · next hidle =>
      cases h
      exact .begin _ _ _ _ rfl hidle
    · cases h
  | fallback =>
    dsimp only at h
    split at h
    · next hidle =>
      cases h
      exact .begin _ _ _ _ rfl hidle.1
    · cases h
  | setReason p =>
    dsimp only at h
    split at h
    · next hphase =>
      cases h
      exact .setReason p _ _ hphase
    · cases h
  | copy p profile windowOpen nowMs =>
    dsimp only at h
    split at h
    · next hphase =>
      cases h
      exact .copy p _ _ _ hphase
    · cases h
  | publish p =>
    dsimp only at h
    split at h
    · next hphase =>
      cases h
      exact .publish p _ _ _ _ hphase
    · cases h

/-- The phases of the other tasks stay. -/
theorem snapshotStep_phase {sha256 : Bytes → Option Digest} {s s' : SnapshotState}
    {act : PublishAct} (h : snapshotStep sha256 s act s') {q : PublishTask} (hq : act.task ≠ q) :
    s'.phase q = s.phase q := by
  cases snapshotStep_move h with
  | quiet => rfl
  | begin _ p session reason hact =>
    rw [hact] at hq
    cases reason with
    | none => exact Function.update_of_ne hq.symm _ _
    | some reason => exact Function.update_of_ne hq.symm _ _
  | setReason => exact Function.update_of_ne hq.symm _ _
  | copy => exact Function.update_of_ne hq.symm _ _
  | publish => exact Function.update_of_ne hq.symm _ _

/-! ## What every step keeps -/

/-- The task has still to publish the topic, from this copy. -/
def PublishPhase.Owes (phase : PublishPhase) (reading : AuthorityReading) (copy : Nat)
    (topic : AuthorityTopic) : Prop :=
  ∃ rest, phase = .publishing reading copy rest ∧ topic ∈ rest

structure SnapshotInv (s : SnapshotState) : Prop where
  copy_le : ∀ p reading n rest, s.phase p = .publishing reading n rest →
    n ≤ s.ledger.copies ∧ (n = s.ledger.copies → s.ledger.last = some (p, reading))
  copyOf_le : ∀ topic, s.ledger.copyOf topic ≤ s.ledger.copies
  change_le : ∀ p reason n, s.phase p = .changed reason n →
    n ≤ s.ledger.changes ∧ (n = s.ledger.changes → reason = s.ledger.lastReason)
  reasonOf_le : s.ledger.reasonOf ≤ s.ledger.changes
  /-- The values of the last copy are published or owed. -/
  values : ∀ p reading, s.ledger.last = some (p, reading) → ∀ topic, topic ≠ .authorityReason →
    (s.ledger.copyOf topic = s.ledger.copies ∧
      s.retained topic = some (reading.value s.reason topic)) ∨
    (s.phase p).Owes reading s.ledger.copies topic
  /-- The last copy shows the latest core, or another copy will be taken. -/
  latest : ∀ p reading, s.ledger.last = some (p, reading) →
    (∃ q, (s.phase q).beforeCopy = true) ∨ Shows reading s.session.core
  /-- The latest reason is set or will be. -/
  reason : (s.ledger.reasonOf = s.ledger.changes ∧ s.reason = s.ledger.lastReason) ∨
    ∃ p reason, s.phase p = .changed reason s.ledger.changes
  /-- The reason is published or will be. -/
  reasonTopic : s.ledger.last = none ∨ s.retained .authorityReason = some s.reason ∨
    ∃ q, (s.phase q).beforeCopy = true ∨ ∃ reading n, (s.phase q).Owes reading n .authorityReason

theorem SnapshotInv.start (session : Bytes) : SnapshotInv (.start session) where
  copy_le := fun _ _ _ _ h => by cases h
  copyOf_le := fun _ => le_refl _
  change_le := fun _ _ _ h => by cases h
  reasonOf_le := le_refl _
  values := fun _ _ h => by cases h
  latest := fun _ _ h => by cases h
  reason := .inl ⟨rfl, rfl⟩
  reasonTopic := .inl rfl

/-- At rest nothing is owed. -/
theorem SnapshotInv.coherent {s : SnapshotState} (h : SnapshotInv s) : Coherent s := by
  intro hidle p reading hlast
  have hnone : ∀ q, (s.phase q).beforeCopy = false := by
    intro q
    rw [hidle q]
    rfl
  have howes : ∀ q reading n topic, ¬ (s.phase q).Owes reading n topic := by
    rintro q reading n topic ⟨rest, hphase, -⟩
    rw [hidle q] at hphase
    cases hphase
  have hreason : s.reason = s.ledger.lastReason := by
    rcases h.reason with ⟨-, hreason⟩ | ⟨q, reason, hphase⟩
    · exact hreason
    · rw [hidle q] at hphase
      cases hphase
  have hshows : Shows reading s.session.core := by
    rcases h.latest p reading hlast with ⟨q, hq⟩ | hshows
    · rw [hnone q] at hq
      cases hq
    · exact hshows
  obtain ⟨nowMs, hvalue⟩ := hshows
  refine ⟨nowMs, fun topic => ?_⟩
  rw [hvalue, ← hreason]
  by_cases htopic : topic = .authorityReason
  · subst htopic
    rcases h.reasonTopic with hno | hretained | ⟨q, hq | ⟨reading', n, hq⟩⟩
    · rw [hlast] at hno
      cases hno
    · exact hretained
    · rw [hnone q] at hq
      cases hq
    · exact absurd hq (howes _ _ _ _)
  · rcases h.values p reading hlast topic htopic with ⟨-, hretained⟩ | howed
    · exact hretained
    · exact absurd howed (howes _ _ _ _)

/-- A phase that a task did not enter just now it had before. -/
theorem phase_of_update {phase : PublishTask → PublishPhase} {new old : PublishPhase}
    {p q : PublishTask} (hnew : new ≠ old) (h : Function.update phase p new q = old) :
    phase q = old := by
  by_cases hq : q = p
  · subst hq
    exact absurd ((Function.update_self _ _ _).symm.trans h) hnew
  · rw [Function.update_of_ne hq] at h
    exact h

/-- A phase that is not the one left by a task is kept. -/
theorem update_of_phase {phase : PublishTask → PublishPhase} {new : PublishPhase}
    {p q : PublishTask} {P : PublishPhase → Prop} (hp : ¬ P (phase p)) (h : P (phase q)) :
    P (Function.update phase p new q) := by
  rw [Function.update_of_ne]
  · exact h
  · rintro rfl
    exact hp h

theorem not_owes {phase : PublishPhase} {reading : AuthorityReading} {n : Nat}
    {topic : AuthorityTopic} (h : ∀ rest, phase ≠ .publishing reading n rest) :
    ¬ phase.Owes reading n topic :=
  fun ⟨rest, hphase, _⟩ => h rest hphase

theorem beforeCopy_update (phase : PublishTask → PublishPhase) (p : PublishTask)
    {new : PublishPhase} (h : new.beforeCopy = true) :
    ∃ q, (Function.update phase p new q).beforeCopy = true := by
  refine ⟨p, ?_⟩
  rw [Function.update_self]
  exact h

theorem AuthorityReading.value_of_ne (reading : AuthorityReading) (reason reason' : Bytes)
    {topic : AuthorityTopic} (h : topic ≠ .authorityReason) :
    reading.value reason topic = reading.value reason' topic := by
  cases topic with
  | authorityReason => exact absurd rfl h
  | _ => rfl

theorem mem_authorityTopics (topic : AuthorityTopic) : topic ∈ authorityTopics := by
  cases topic <;> decide

namespace SnapshotInv

variable {s : SnapshotState} {p : PublishTask}

theorem quiet {session : Session} (h : SnapshotInv s)
    (hquiet : ∀ reading, Shows reading s.session.core → Shows reading session.core) :
    SnapshotInv { s with session := session } where
  copy_le := h.copy_le
  copyOf_le := h.copyOf_le
  change_le := h.change_le
  reasonOf_le := h.reasonOf_le
  values := h.values
  latest q reading hlast := (h.latest q reading hlast).imp_right (hquiet reading)
  reason := h.reason
  reasonTopic := h.reasonTopic

theorem begin (session : Session) (reason : Option Bytes) (h : SnapshotInv s)
    (hidle : s.phase p = .idle) : SnapshotInv (s.begin p session reason) := by
  have howes : ∀ reading n topic, ¬ (s.phase p).Owes reading n topic :=
    fun _ _ _ => not_owes (by simp [hidle])
  cases reason with
  | none =>
    have hbefore := beforeCopy_update s.phase p (show PublishPhase.copying.beforeCopy = true from rfl)
    refine ⟨fun q reading n rest hq => ?_, h.copyOf_le, fun q r n hq => ?_, h.reasonOf_le,
      fun q reading hlast topic htopic => ?_, fun _ _ _ => .inl hbefore, ?_,
      .inr (.inr (hbefore.imp fun _ => .inl))⟩
    · exact h.copy_le q reading n rest (phase_of_update (by simp) hq)
    · exact h.change_le q r n (phase_of_update (by simp) hq)
    · exact (h.values q reading hlast topic htopic).imp_right
        (update_of_phase (P := fun phase => phase.Owes _ _ _) (howes _ _ _))
    · refine h.reason.imp_right fun ⟨q, r, hq⟩ => ⟨q, r, ?_⟩
      exact update_of_phase (P := fun phase => phase = _) (by simp [hidle]) hq
  | some reason =>
    have hbefore := beforeCopy_update s.phase p
      (show (PublishPhase.changed reason (s.ledger.changes + 1)).beforeCopy = true from rfl)
    refine ⟨fun q reading n rest hq => ?_, h.copyOf_le, fun q r n hq => ?_,
      Nat.le_succ_of_le h.reasonOf_le, fun q reading hlast topic htopic => ?_,
      fun _ _ _ => .inl hbefore, .inr ⟨p, reason, Function.update_self _ _ _⟩,
      .inr (.inr (hbefore.imp fun _ => .inl))⟩
    · exact h.copy_le q reading n rest (phase_of_update (by simp) hq)
    · by_cases hqp : q = p
      · subst hqp
        cases (Function.update_self _ _ _).symm.trans hq
        exact ⟨le_refl _, fun _ => rfl⟩
      · have hle := (h.change_le q r n ((Function.update_of_ne hqp _ _).symm.trans hq)).1
        exact ⟨Nat.le_succ_of_le hle, fun heq => absurd (heq ▸ hle) (Nat.not_succ_le_self _)⟩
    · exact (h.values q reading hlast topic htopic).imp_right
        (update_of_phase (P := fun phase => phase.Owes _ _ _) (howes _ _ _))

theorem setReason {reason : Bytes} {change : Nat} (h : SnapshotInv s)
    (hphase : s.phase p = .changed reason change)
    (horder : s.ledger.reasonOf ≤ change ∨ s.reason = reason) :
    SnapshotInv (s.setReason p reason change) := by
  obtain ⟨hle, hlast⟩ := h.change_le p reason change hphase
  have hbefore := beforeCopy_update s.phase p (show PublishPhase.copying.beforeCopy = true from rfl)
  refine ⟨fun q reading n rest hq => ?_, h.copyOf_le, fun q r n hq => ?_,
    max_le h.reasonOf_le hle, fun q reading hread topic htopic => ?_, fun _ _ _ => .inl hbefore, ?_,
    .inr (.inr (hbefore.imp fun _ => .inl))⟩
  · exact h.copy_le q reading n rest (phase_of_update (by simp) hq)
  · exact h.change_le q r n (phase_of_update (by simp) hq)
  · rcases h.values q reading hread topic htopic with ⟨hcopy, hretained⟩ | howed
    · refine .inl ⟨hcopy, hretained.trans (congrArg some ?_)⟩
      exact reading.value_of_ne _ _ htopic
    · exact .inr (update_of_phase (P := fun phase => phase.Owes _ _ _)
        (not_owes (by simp [hphase])) howed)
  · show (max s.ledger.reasonOf change = s.ledger.changes ∧ reason = s.ledger.lastReason) ∨ _
    by_cases hnew : change = s.ledger.changes
    · exact .inl ⟨by rw [hnew]; exact max_eq_right h.reasonOf_le, hlast hnew⟩
    · rcases h.reason with ⟨hset, hcurrent⟩ | ⟨q, r, hq⟩
      · -- an older reason over the latest: only when it is the same
        rcases horder with horder | hsame
        · exact absurd (le_antisymm hle (hset ▸ horder)) hnew
        · exact .inl ⟨by rw [hset]; exact max_eq_left hle, hsame.symm.trans hcurrent⟩
      · refine .inr ⟨q, r, ?_⟩
        refine update_of_phase (P := fun phase => phase = _) (fun heq => ?_) hq
        exact hnew (PublishPhase.changed.inj (hphase.symm.trans heq)).2

theorem copy (authorityProfile : UInt8) (coreWindowOpen : Bool) (nowMs : UInt64)
    (h : SnapshotInv s) (hphase : s.phase p = .copying) :
    SnapshotInv (s.copy p authorityProfile coreWindowOpen nowMs) := by
  have howes : ∀ topic, ((s.copy p authorityProfile coreWindowOpen nowMs).phase p).Owes
      ⟨s.session.core, authorityProfile, coreWindowOpen, nowMs⟩ (s.ledger.copies + 1) topic :=
    fun topic => ⟨authorityTopics, Function.update_self _ _ _, mem_authorityTopics topic⟩
  refine ⟨fun q reading n rest hq => ?_, fun topic => Nat.le_succ_of_le (h.copyOf_le topic),
    fun q r n hq => ?_, h.reasonOf_le, fun q reading hlast topic htopic => ?_,
    fun q reading hlast => ?_, ?_, .inr (.inr ⟨p, .inr ⟨_, _, howes _⟩⟩)⟩
  · by_cases hqp : q = p
    · subst hqp
      cases (Function.update_self _ _ _).symm.trans hq
      exact ⟨le_refl _, fun _ => rfl⟩
    · have hle := (h.copy_le q reading n rest ((Function.update_of_ne hqp _ _).symm.trans hq)).1
      exact ⟨Nat.le_succ_of_le hle, fun heq => absurd (heq ▸ hle) (Nat.not_succ_le_self _)⟩
  · exact h.change_le q r n (phase_of_update (by simp) hq)
  · cases hlast
    exact .inr (howes topic)
  · cases hlast
    exact .inr (.refl _)
  · refine h.reason.imp_right fun ⟨q, r, hq⟩ => ⟨q, r, ?_⟩
    exact update_of_phase (P := fun phase => phase = _) (by simp [hphase]) hq

/-- What a task owes besides the topic published it owes still. -/
theorem owes_publish {reading reading' : AuthorityReading} {copy n : Nat}
    {topic topic' : AuthorityTopic} {rest : List AuthorityTopic} {q : PublishTask}
    (hphase : s.phase p = .publishing reading copy (topic :: rest)) (hne : topic' ≠ topic)
    (h : (s.phase q).Owes reading' n topic') :
    ((s.publish p reading copy topic rest).phase q).Owes reading' n topic' := by
  obtain ⟨rest', hq, hmem⟩ := h
  by_cases hqp : q = p
  · subst hqp
    rw [hphase] at hq
    cases hq
    have hmem : topic' ∈ rest := (List.mem_cons.mp hmem).resolve_left hne
    refine ⟨rest, ?_, hmem⟩
    refine (Function.update_self _ _ _).trans (if_neg ?_)
    exact List.ne_nil_of_mem hmem
  · exact ⟨rest', (Function.update_of_ne hqp _ _).trans hq, hmem⟩

/-- The topic itself: it has the last copy's value, or the last copy owes it still. -/
theorem value_publish {reading last : AuthorityReading} {copy : Nat} {topic : AuthorityTopic}
    {rest : List AuthorityTopic} {q : PublishTask} (h : SnapshotInv s)
    (hphase : s.phase p = .publishing reading copy (topic :: rest))
    (horder : s.ledger.copyOf topic ≤ copy ∨
      s.retained topic = some (reading.value s.reason topic))
    (hlast : s.ledger.last = some (q, last)) (htopic : topic ≠ .authorityReason) :
    (max (s.ledger.copyOf topic) copy = s.ledger.copies ∧
        some (reading.value s.reason topic) = some (last.value s.reason topic)) ∨
      ((s.publish p reading copy topic rest).phase q).Owes last s.ledger.copies topic := by
  obtain ⟨hle, hnewest⟩ := h.copy_le p reading copy _ hphase
  by_cases hnew : copy = s.ledger.copies
  · -- the last copy is published
    have hsame := (hnewest hnew).symm.trans hlast
    cases hsame
    exact .inl ⟨by rw [hnew]; exact max_eq_right (h.copyOf_le topic), rfl⟩
  · rcases h.values q last hlast topic htopic with ⟨hcopy, hretained⟩ | howed
    · -- an older copy over the last: only the same value
      rcases horder with horder | hsame
      · exact absurd (le_antisymm hle (hcopy ▸ horder)) hnew
      · exact .inl ⟨by rw [hcopy]; exact max_eq_left hle, hsame.symm.trans hretained⟩
    · refine .inr (update_of_phase (P := fun phase => phase.Owes _ _ _) (not_owes ?_) howed)
      intro rest' heq
      exact hnew (PublishPhase.publishing.inj (hphase.symm.trans heq)).2.1

theorem publish {reading : AuthorityReading} {copy : Nat} {topic : AuthorityTopic}
    {rest : List AuthorityTopic} (h : SnapshotInv s)
    (hphase : s.phase p = .publishing reading copy (topic :: rest))
    (horder : s.ledger.copyOf topic ≤ copy ∨
      s.retained topic = some (reading.value s.reason topic)) :
    SnapshotInv (s.publish p reading copy topic rest) := by
  obtain ⟨hle, hnewest⟩ := h.copy_le p reading copy _ hphase
  have hbefore : ∀ q, (s.phase q).beforeCopy = true →
      ((s.publish p reading copy topic rest).phase q).beforeCopy = true := by
    intro q hq
    refine update_of_phase (P := fun phase => phase.beforeCopy = true) ?_ hq
    simp [hphase, PublishPhase.beforeCopy]
  refine ⟨fun q reading' n rest' hq => ?_, fun topic' => ?_, fun q r n hq => ?_, h.reasonOf_le,
    fun q last hlast topic' htopic => ?_, fun q last hlast => ?_, ?_, ?_⟩
  · by_cases hqp : q = p
    · subst hqp
      have hq := (Function.update_self _ _ _).symm.trans hq
      split_ifs at hq
      cases hq
      exact ⟨hle, hnewest⟩
    · exact h.copy_le q reading' n rest' ((Function.update_of_ne hqp _ _).symm.trans hq)
  · show Function.update s.ledger.copyOf topic _ topic' ≤ s.ledger.copies
    rw [Function.update_apply]
    split
    · exact max_le (h.copyOf_le topic) hle
    · exact h.copyOf_le topic'
  · refine h.change_le q r n (phase_of_update ?_ hq)
    split
    · simp
    · simp
  · by_cases htop : topic' = topic
    · subst htop
      show (Function.update s.ledger.copyOf topic' _ topic' = _ ∧
        Function.update s.retained topic' _ topic' = _) ∨ _
      rw [Function.update_self, Function.update_self]
      exact h.value_publish hphase horder hlast htopic
    · refine (h.values q last hlast topic' htopic).imp (fun ⟨hcopy, hretained⟩ => ⟨?_, ?_⟩)
        (owes_publish hphase htop)
      · exact (Function.update_of_ne htop _ _).trans hcopy
      · exact (Function.update_of_ne htop _ _).trans hretained
  · exact (h.latest q last hlast).imp_left fun ⟨q', hq'⟩ => ⟨q', hbefore q' hq'⟩
  · refine h.reason.imp_right fun ⟨q, r, hq⟩ => ⟨q, r, ?_⟩
    exact update_of_phase (P := fun phase => phase = _) (by simp [hphase]) hq
  · by_cases htop : topic = .authorityReason
    · subst htop
      refine .inr (.inl ?_)
      show Function.update s.retained .authorityReason (some s.reason) .authorityReason = _
      exact Function.update_self _ _ _
    · have hne : AuthorityTopic.authorityReason ≠ topic := fun heq => htop heq.symm
      rcases h.reasonTopic with hno | hretained | ⟨q, hq | ⟨reading', n, hq⟩⟩
      · exact .inl hno
      · exact .inr (.inl ((Function.update_of_ne hne _ _).trans hretained))
      · exact .inr (.inr ⟨q, .inl (hbefore q hq)⟩)
      · exact .inr (.inr ⟨q, .inr ⟨reading', n, owes_publish hphase hne hq⟩⟩)

theorem step {sha256 : Bytes → Option Digest} {v : Move SnapshotState PublishAct}
    (h : SnapshotInv v.pre) (hs : snapshotStep sha256 v.pre v.ev v.post)
    (horder : inOrder v = true) :
    SnapshotInv v.post := by
  obtain ⟨s, act, s'⟩ := v
  have hmove : SnapshotMove s act s' := snapshotStep_move hs
  unfold inOrder at horder
  cases hmove with
  | quiet ev session hquiet =>
    refine h.quiet fun reading => hquiet reading ?_
    intro message hact hlink hholder
    obtain ⟨now, act⟩ := ev
    cases hact
    dsimp only at horder
    rw [Bool.or_eq_true, Bool.or_eq_true, decide_eq_true_eq, decide_eq_true_eq,
      decide_eq_true_eq] at horder
    rcases horder with (hoffline | hother) | htype
    · exact absurd hlink hoffline
    · exact absurd hholder hother
    · exact htype
  | begin _ p session reason _ hidle => exact h.begin session reason hidle
  | setReason p reason change hphase =>
    dsimp only at horder
    rw [hphase] at horder
    dsimp only at horder
    rw [Bool.or_eq_true, decide_eq_true_eq, decide_eq_true_eq] at horder
    exact h.setReason hphase horder
  | copy p profile windowOpen nowMs hphase => exact h.copy profile windowOpen nowMs hphase
  | publish p reading copy topic rest hphase =>
    dsimp only at horder
    rw [hphase] at horder
    dsimp only at horder
    rw [Bool.or_eq_true, decide_eq_true_eq, decide_eq_true_eq] at horder
    exact h.publish hphase horder

end SnapshotInv

/-! ## Runs -/

/-- A task that does not act stays idle. -/
theorem phase_idle {sha256 : Bytes → Option Digest} {session : Bytes}
    {ms : List (Move SnapshotState PublishAct)}
    (h : IsRun (snapshotStep sha256) (SnapshotState.start session) ms) {q : PublishTask}
    (hq : ∀ v ∈ ms, v.ev.task ≠ q) :
    (final (SnapshotState.start session) ms).phase q = .idle :=
  (h.inv_of (I := fun s => s.phase q = .idle) (K := fun v => v.ev.task ≠ q) rfl hq
    fun _ hi hs hv => (snapshotStep_phase hs hv).trans hi).2

def publishAll (p : PublishTask) : List PublishAct := .replicate 6 (.publish p)

/-- The panel is granted authority and loses its connection before all is published. -/
def orderlyActs : List PublishAct :=
  [.session panelGrant, .setReason .runtime, .copy .runtime 1 false 1001, .publish .runtime,
    .session ⟨1002, .disconnect 1⟩, .setReason (.client 1), .publish .runtime,
    .copy (.client 1) 1 false 1003] ++
    .replicate 4 (.publish .runtime) ++ publishAll (.client 1)

/-- The runtime task copies the core before the panel's connection is lost and publishes
after the client task. -/
def overwritingActs : List PublishAct :=
  [.session panelGrant, .setReason .runtime, .copy .runtime 1 false 1001,
    .session ⟨1002, .disconnect 1⟩, .setReason (.client 1), .copy (.client 1) 1 false 1003] ++
    publishAll (.client 1) ++ publishAll .runtime

def overwrittenMoves : List (Move SnapshotState PublishAct) :=
  snapshotTrace mbedtlsSha256 (.start (txt "0123456789abcdef")) overwritingActs

def overwritten : SnapshotState := final (.start (txt "0123456789abcdef")) overwrittenMoves

theorem status_link_lost {c : SessionCore} (howned : c.leaseMachineId.bytes ≠ [])
    (hlink : c.link ≠ .online) (profile : UInt8) (windowOpen : Bool) (nowMs : UInt64) :
    (authorityStatusFromCore c profile windowOpen nowMs).1 = txt "EXPIRING" := by
  unfold authorityStatusFromCore
  dsimp only
  rw [if_neg (not_not.mpr howned), if_pos hlink]

end Argus
