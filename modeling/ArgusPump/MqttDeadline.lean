import ArgusPump.MqttTransfer

/-!
# The deadline of a lease

What a lease that has lapsed still gives its former holder.  Requests treat it as
unowned, but heartbeats and commands go by the recorded holder alone, which stays until
the next tick, so

    no holder recorded → without an acquiring request no heartbeat is accepted and
      no command admitted                                             (HolderEmpty.nothing)
    a holder recorded → its heartbeat is accepted at any time            (holder_renews)
    the lapsed lease gives nothing ↔ no holder is recorded any more        (deadline_iff)
-/

namespace Argus

open Interact SessionCore

/-- A request that advances the epoch. -/
def Acquires (v : Move Session SessionEvent) : Prop :=
  (∃ message profile windowOpen running,
    v.ev.act = .authority message false profile windowOpen running) ∧
  v.post.core.authorityEpoch ≠ v.pre.core.authorityEpoch

/-- The move is an accepted heartbeat. -/
def Renews (sha256 : Bytes → Option Digest) (v : Move Session SessionEvent) : Prop :=
  (v.pre.handle sha256 v.ev).1 = .heartbeat (.handled espOk)

theorem not_acquires_heartbeat (s t : Session) (now : UInt64) (message : Message) :
    ¬ Acquires ⟨s, ⟨now, .heartbeat message⟩, t⟩ := by
  rintro ⟨⟨_, _, _, _, hact⟩, -⟩
  cases hact

/-- From `now` on and until someone acquires the lease, no heartbeat renews it and no
command is admitted. -/
def DeadlineLaw (sha256 : Bytes → Option Digest) (s : Session) (now : UInt64) : Prop :=
  ∀ ms, IsRun (sessionStep sha256) s ms → (∀ v ∈ ms, now ≤ v.ev.nowMs ∧ ¬ Acquires v) →
    (∀ v ∈ ms, ¬ Renews sha256 v) ∧
    ∀ i conn command, commandAdmissionCheck (final s ms).core i conn command ≠ .ok

/-! ## Without a holder -/

def HolderEmpty (s : Session) : Prop := s.core.leaseMachineId.bytes = []

theorem arbitrate_release_holder (c : SessionCore) (message : Message) (ctx : AdmitContext)
    (req : AuthorityRequest) :
    (arbitrate c message true ctx req).2.2.2.leaseMachineId = c.leaseMachineId ∨
      (arbitrate c message true ctx req).2.2.2.leaseMachineId.bytes = [] := by
  simp only [arbitrate, if_true]
  split
  · exact .inl rfl
  · exact releaseAuthority_holder c message.principal.identifier

/-- **One step**: only an acquiring request records a holder. -/
theorem HolderEmpty.step {sha256 : Bytes → Option Digest} {v : Move Session SessionEvent}
    (h : HolderEmpty v.pre) (hs : sessionStep sha256 v.pre v.ev v.post) (hno : ¬ Acquires v) :
    HolderEmpty v.post := by
  obtain ⟨s, ⟨now, act⟩, t⟩ := v
  obtain rfl : t = (s.handle sha256 ⟨now, act⟩).2 := hs
  have hkept : ∀ c : SessionCore, c.leaseMachineId = s.core.leaseMachineId →
      c.leaseMachineId.bytes = [] := fun c hc => (congrArg Identifier.bytes hc).trans h
  cases act with
  | authority message release profile windowOpen running =>
    cases release with
    | true =>
      rcases authorityAdmit_cases sha256 s message true ⟨profile, windowOpen, running, now⟩ with
        ⟨hsame, -⟩ | ⟨req, -, -, -, hcore, -⟩
      · exact hkept _ (congrArg (fun u => u.core.leaseMachineId) hsame)
      · refine (congrArg (fun c => c.leaseMachineId.bytes) hcore).trans ?_
        rcases arbitrate_release_holder s.core message ⟨profile, windowOpen, running, now⟩ req with
          hr | hr
        · exact hkept _ hr
        · exact hr
    | false =>
      rcases handle_owner sha256 s ⟨now, .authority message false profile windowOpen running⟩ with
        ⟨-, he⟩ | ⟨-, he⟩
      · exact absurd ⟨⟨message, profile, windowOpen, running, rfl⟩, he.ne⟩ hno
      · exact hkept _ he.holder
  | heartbeat message => exact hkept _ (handleHeartbeat_owner s.core message now).holder
  | command message action maxRpm routed =>
    exact hkept _ (handleCommand_owner s.core message action maxRpm routed).holder
  | tick =>
    rcases tick_holder s.core now with ht | ht
    · exact hkept _ ht
    · exact ht
  | disconnect conn => exact hkept _ (disconnect_owner s.core conn).holder

theorem HolderEmpty.not_renews {sha256 : Bytes → Option Digest} {v : Move Session SessionEvent}
    (h : HolderEmpty v.pre) : ¬ Renews sha256 v := by
  obtain ⟨s, ⟨now, act⟩, t⟩ := v
  unfold Renews
  cases act with
  | heartbeat message =>
    show SessionOutcome.heartbeat (handleHeartbeat s.core message now).1 ≠ _
    unfold handleHeartbeat
    split
    · intro hr
      cases hr
    · split
      · intro hr
        cases hr
      · rw [if_neg fun hholder => hholder.1 h]
        intro hr
        cases hr
  | authority | command | tick | disconnect =>
    intro hr
    cases hr

theorem HolderEmpty.not_admitted {s : Session} (h : HolderEmpty s) (i : Identifier)
    (conn : UInt64) (command : MqttCommand) : commandAdmissionCheck s.core i conn command ≠ .ok :=
  fun hok => (commandAdmissionCheck_ok hok).2.1 h

/-- **A run** without a holder at its start, in which nobody acquires the lease. -/
theorem HolderEmpty.nothing {sha256 : Bytes → Option Digest} {s : Session}
    {ms : List (Move Session SessionEvent)} (h : HolderEmpty s)
    (hr : IsRun (sessionStep sha256) s ms) (hno : ∀ v ∈ ms, ¬ Acquires v) :
    (∀ v ∈ ms, ¬ Renews sha256 v) ∧
      ∀ i conn command, commandAdmissionCheck (final s ms).core i conn command ≠ .ok := by
  obtain ⟨hall, hfinal⟩ := hr.inv_of (K := fun v => ¬ Acquires v) h hno fun _ hi hs => hi.step hs
  exact ⟨fun v hv => (hall v hv).1.not_renews, hfinal.not_admitted⟩

/-! ## With a holder -/

/-- A connection whose heartbeats were not seen last. -/
def freshConnection (core : SessionCore) : UInt64 :=
  if core.heartbeatConnectionId = 1 then 2 else 1

theorem freshConnection_spec (core : SessionCore) :
    freshConnection core ≠ 0 ∧ core.heartbeatConnectionId ≠ freshConnection core := by
  unfold freshConnection
  split
  · next h =>
    rw [h]
    exact ⟨by decide, by decide⟩
  · next h => exact ⟨by decide, h⟩

/-- The deadline is not among the conditions. -/
theorem acceptHeartbeat_holder {c : SessionCore} {conn : UInt64} {hb : Heartbeat}
    (hheld : c.leaseMachineId.bytes ≠ []) (hconn : conn ≠ 0)
    (hfresh : c.heartbeatConnectionId ≠ conn) (hsession : c.session = hb.session)
    (clientType : UInt8) (now : UInt64) :
    (c.acceptHeartbeat conn c.leaseMachineId clientType hb now).1 = espOk := by
  have hholder : c.leaseHeldBy c.leaseMachineId = true := by
    simp [leaseHeldBy, hheld]
  unfold acceptHeartbeat
  rw [if_neg, if_neg, if_neg]
  · exact fun hc => hfresh hc.1
  · exact fun hc => hc.2.2.2 hholder
  · rintro (hc | hc)
    · exact hconn hc
    · exact hc hsession

/-- A heartbeat of the recorded holder. -/
def holderHeartbeat (core : SessionCore) : Message where
  connectionId := freshConnection core
  payload := firstHeartbeat core.session
  qos := 1
  retain := false
  policyAdmitted := true
  principal := ⟨core.leaseMachineId, core.leaseClientType⟩

theorem holder_renews {c : SessionCore} (hvalid : validSession c.session = true)
    (hheld : c.leaseMachineId.bytes ≠ []) (now : UInt64) :
    (handleHeartbeat c (holderHeartbeat c) now).1 = .handled espOk := by
  obtain ⟨hconn, hfresh⟩ := freshConnection_spec c
  unfold handleHeartbeat
  rw [if_neg (fun h => h rfl)]
  have hdecoded : decodeHeartbeat (holderHeartbeat c).payload = .ok ⟨c.session, 1⟩ :=
    decodeHeartbeat_first hvalid
  rw [hdecoded]
  dsimp only
  rw [if_pos ⟨hheld, rfl⟩]
  show HeartbeatOutcome.handled
    (c.acceptHeartbeat (freshConnection c) c.leaseMachineId c.leaseClientType ⟨c.session, 1⟩ now).1 = _
  rw [acceptHeartbeat_holder hheld hconn hfresh rfl]

/-! ## The session id -/

@[simp] theorem leaseRecordHolder_session (c : SessionCore) (i : Identifier) (t : UInt8) :
    (c.leaseRecordHolder i t).session = c.session := by
  unfold leaseRecordHolder
  split <;> rfl

theorem arbitrate_session (c : SessionCore) (message : Message) (release : Bool)
    (ctx : AdmitContext) (req : AuthorityRequest) :
    (arbitrate c message release ctx req).2.2.2.session = c.session := by
  simp only [arbitrate]
  split
  · split
    · rfl
    · unfold releaseAuthority
      split
      · rfl
      · exact leaseRecordHolder_session c .empty 0
  · split
    · rfl
    · rcases requestAuthorityWithState_cases c message.connectionId message.principal.identifier
        message.principal.clientType ctx.authorityProfile ctx.coreWindowOpen ctx.machineRunning
        req.authorityEpoch ctx.nowMs with ⟨h, -⟩ | ⟨h, -⟩ | ⟨d, -, -, h⟩
      · rw [h]
        exact leaseRecordHolder_session c _ _
      · rw [h]
        rfl
      · rw [h]

theorem handleHeartbeat_session (c : SessionCore) (message : Message) (now : UInt64) :
    (handleHeartbeat c message now).2.session = c.session := by
  unfold handleHeartbeat
  split
  · rfl
  · split
    · rfl
    · split
      · unfold acceptHeartbeat
        split_ifs
        · rfl
        · rfl
        · rfl
        · exact leaseRecordHolder_session c _ _
      · rfl

theorem handleCommand_session (c : SessionCore) (message : Message) (action : MqttAction)
    (maxRpmMilli : Nat) (routed : Except Bytes Bytes) :
    (handleCommand c message action maxRpmMilli routed).2.session = c.session := by
  rcases handleCommand_core c message action maxRpmMilli routed with h | ⟨_, _, _, h⟩
  · rw [h]
  · rw [h]
    rfl

theorem handle_session (sha256 : Bytes → Option Digest) (s : Session) (ev : SessionEvent) :
    (s.handle sha256 ev).2.core.session = s.core.session := by
  obtain ⟨now, act⟩ := ev
  cases act with
  | authority message release profile windowOpen running =>
    rcases authorityAdmit_cases sha256 s message release ⟨profile, windowOpen, running, now⟩ with
      ⟨hsame, -⟩ | ⟨req, -, -, -, hcore, -⟩
    · exact congrArg (fun u => u.core.session) hsame
    · exact (congrArg SessionCore.session hcore).trans (arbitrate_session _ _ _ _ _)
  | heartbeat message => exact handleHeartbeat_session s.core message now
  | command message action maxRpm routed => exact handleCommand_session s.core message action _ _
  | tick =>
    show (s.core.tick now).2.session = _
    unfold tick
    split
    · rfl
    · exact leaseRecordHolder_session _ _ _
  | disconnect conn =>
    show (s.core.disconnect conn).2.session = _
    unfold disconnect
    split <;> rfl

/-- The session core keeps the name it was given at the start. -/
theorem reach_session {sha256 : Bytes → Option Digest} {high low : UInt32} {s : Session}
    (h : Reach (sessionStep sha256) (Session.start (sessionFormat high low)) s) :
    s.core.session = sessionFormat high low := by
  refine h.inv (I := fun t => t.core.session = sessionFormat high low) ?_ ?_
  · show (sessionFormat high low).take 16 = _
    rw [List.take_of_length_le]
    exact Nat.le_of_eq (validSession_plain (validSession_format high low)).1
  · rintro ⟨t, ev, u⟩ hi (rfl : u = (t.handle sha256 ev).2)
    exact (handle_session sha256 t ev).trans hi

/-! ## The law -/

theorem deadline_iff (sha256 : Bytes → Option Digest) {high low : UInt32} {s : Session}
    (hreach : Reach (sessionStep sha256) (Session.start (sessionFormat high low)) s)
    {now : UInt64} (_hlapsed : s.core.expired now = true) :
    DeadlineLaw sha256 s now ↔ s.core.leaseMachineId.bytes = [] := by
  constructor
  · intro hlaw
    by_contra hheld
    have hvalid : validSession s.core.session = true := by
      rw [reach_session hreach]
      exact validSession_format high low
    -- the former holder's next heartbeat, at the first moment past the deadline
    let ev : SessionEvent := ⟨now, .heartbeat (holderHeartbeat s.core)⟩
    have hrun : IsRun (sessionStep sha256) s [⟨s, ev, (s.handle sha256 ev).2⟩] :=
      ⟨rfl, rfl, trivial⟩
    obtain ⟨hno, -⟩ := hlaw _ hrun (by
      intro v hv
      rw [List.mem_singleton.mp hv]
      exact ⟨UInt64.le_refl _, not_acquires_heartbeat _ _ _ _⟩)
    refine hno _ (List.mem_singleton.mpr rfl) ?_
    exact congrArg SessionOutcome.heartbeat (holder_renews hvalid hheld now)
  · intro hempty ms hrun hno
    exact HolderEmpty.nothing hempty hrun fun v hv => (hno v hv).2

/-- The panel's lease, granted at 1 s and not renewed. -/
def lapsing (evs : List SessionEvent) : Session :=
  let s := Session.start (sessionFormat 0x01234567 0x89abcdef)
  final s (sessionTrace mbedtlsSha256 s (panelGrant :: evs))

theorem reach_lapsing (evs : List SessionEvent) :
    Reach (sessionStep mbedtlsSha256) (Session.start (sessionFormat 0x01234567 0x89abcdef))
      (lapsing evs) :=
  ⟨_, isRun_sessionTrace _ _ _, rfl⟩

theorem deadline_after_tick : DeadlineLaw mbedtlsSha256 (lapsing [⟨7000, .tick⟩]) 7000 :=
  (deadline_iff mbedtlsSha256 (reach_lapsing [⟨7000, .tick⟩]) (by decide +kernel)).mpr
    (by decide +kernel)

/-- At the deadline, before the tick, a heartbeat renews the lease. -/
theorem deadline_before_tick :
    ¬ ∀ s, Reach (sessionStep mbedtlsSha256) (Session.start (sessionFormat 0x01234567 0x89abcdef)) s →
      ∀ now, s.core.expired now = true → DeadlineLaw mbedtlsSha256 s now := by
  intro h
  let ev : SessionEvent :=
    ⟨7000, .heartbeat (panelMessage (firstHeartbeat (sessionFormat 0x01234567 0x89abcdef)))⟩
  have hrun := isRun_sessionTrace mbedtlsSha256 (lapsing []) [ev]
  obtain ⟨hno, -⟩ := h (lapsing []) (reach_lapsing []) 7000 (by decide +kernel) _ hrun (by
    intro v hv
    rw [List.mem_singleton.mp hv]
    exact ⟨UInt64.le_refl _, not_acquires_heartbeat _ _ _ _⟩)
  refine hno _ (List.mem_singleton.mpr rfl) ?_
  show ((lapsing []).handle mbedtlsSha256 ev).1 = .heartbeat (.handled espOk)
  decide +kernel

end Argus
