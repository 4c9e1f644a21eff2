import ArgusPump.MqttRuntime
import ArgusPump.Lib.Fence
import ArgusPump.Lib.Sha256

/-!
# Runs of the session core

Every order of authority requests and releases, heartbeats, commands, ticks and
disconnects, at any times.  The recorded holder is an owner fenced by the authority
epoch (`session_fenced`), so

    the holder changed → the epoch advanced in between; nothing but a grant, a
      release or an expiry advances it; it never returns to 0           (holder_change_advances_epoch)
    a command admitted under an epoch current earlier on → ownership
      has not changed since                                             (admitted_command_not_delayed)
-/

namespace Argus

open Interact

/-! ## Steps -/

inductive SessionAct
  | authority (message : Message) (release : Bool) (authorityProfile : UInt8)
      (coreWindowOpen machineRunning : Bool)
  | heartbeat (message : Message)
  | command (message : Message) (action : MqttAction) (maxRpmMilli : Nat)
      (routed : Except Bytes Bytes)
  | tick
  | disconnect (connectionId : UInt64)

structure SessionEvent where
  nowMs : UInt64
  act : SessionAct

inductive SessionOutcome
  | authority (out : AuthorityOutcome)
  | heartbeat (out : HeartbeatOutcome)
  | command (out : CommandOutcome)
  | tick (stale : Bool)
  | disconnect (changed : Bool)
deriving DecidableEq

/-- A fresh session: `argus_mqtt_runtime_prepare_start`. -/
def Session.start (session : Bytes) : Session := ⟨.init session, .reset⟩

def Session.handle (sha256 : Bytes → Option Digest) (s : Session) (ev : SessionEvent) :
    SessionOutcome × Session :=
  match ev.act with
  | .authority message release authorityProfile coreWindowOpen machineRunning =>
    let r := authorityAdmit sha256 s message release
      ⟨authorityProfile, coreWindowOpen, machineRunning, ev.nowMs⟩
    (.authority r.1, r.2)
  | .heartbeat message =>
    let r := handleHeartbeat s.core message ev.nowMs
    (.heartbeat r.1, { s with core := r.2 })
  | .command message action maxRpmMilli routed =>
    let r := handleCommand s.core message action maxRpmMilli routed
    (.command r.1, { s with core := r.2 })
  | .tick =>
    let r := s.core.tick ev.nowMs
    (.tick r.1, { s with core := r.2 })
  | .disconnect connectionId =>
    let r := s.core.disconnect connectionId
    (.disconnect r.1, { s with core := r.2 })

def sessionStep (sha256 : Bytes → Option Digest) (s : Session) (ev : SessionEvent) (t : Session) :
    Prop :=
  t = (s.handle sha256 ev).2

/-- A grant, a transfer, a release or an expiry. -/
def SessionOutcome.changesOwner : SessionOutcome → Bool
  | .authority out =>
    out.stage = .releaseAccepted || (out.stage = .requestEvaluated && out.requestResult = .granted)
  | .tick stale => stale
  | .heartbeat _ | .command _ | .disconnect _ => false

/-- The move changes ownership. -/
def changesOwner (sha256 : Bytes → Option Digest) (v : Move Session SessionEvent) : Bool :=
  (v.pre.handle sha256 v.ev).1.changesOwner

/-! ## What each operation does to the holder and the epoch -/

namespace SessionCore

/-- Holder and epoch are what they were. -/
structure SameOwner (c d : SessionCore) : Prop where
  holder : d.leaseMachineId = c.leaseMachineId
  epoch : d.authorityEpoch = c.authorityEpoch

theorem SameOwner.refl (c : SessionCore) : SameOwner c c := ⟨rfl, rfl⟩

/-- The epoch is the next one. -/
def EpochAdvanced (c d : SessionCore) : Prop :=
  d.authorityEpoch = if c.authorityEpoch + 1 = 0 then 1 else c.authorityEpoch + 1

@[simp] theorem leaseRecordHolder_epoch (c : SessionCore) (i : Identifier) (t : UInt8) :
    (c.leaseRecordHolder i t).authorityEpoch = c.authorityEpoch := by
  unfold leaseRecordHolder
  split <;> rfl

theorem leaseRecordHolder_holder (c : SessionCore) {i : Identifier} (t : UInt8)
    (h : i.bytes ≠ []) : (c.leaseRecordHolder i t).leaseMachineId = i := by
  unfold leaseRecordHolder
  rw [if_pos h]

theorem grant_epoch (c : SessionCore) (conn : UInt64) (i : Identifier) (t : UInt8) (now : UInt64) :
    EpochAdvanced c (c.grant conn i t now) := by
  simp [EpochAdvanced, grant, advanceEpoch]

theorem grant_holder (c : SessionCore) (conn : UInt64) {i : Identifier} (t : UInt8) (now : UInt64)
    (h : i.bytes ≠ []) : (c.grant conn i t now).leaseMachineId = i :=
  leaseRecordHolder_holder c t h

/-- The three things a request can do, with what lets it do them. -/
theorem requestAuthority_cases (c : SessionCore) (conn : UInt64) (i : Identifier)
    (clientType profile : UInt8) (windowOpen : Bool) (now : UInt64) :
    (c.requestAuthority conn i clientType profile windowOpen now =
        (.granted, c.grant conn i clientType now) ∧ conn ≠ 0 ∧ i.bytes ≠ [] ∧
      profile ≤ authorityProfileMax ∧ profilePermits profile clientType windowOpen = true ∧
      (c.held now = true → mayPreempt clientType c.leaseClientType = true)) ∨
    (c.requestAuthority conn i clientType profile windowOpen now =
        (.alreadyHeld, c.rebind conn now) ∧ conn ≠ 0 ∧ c.held now = true ∧
      c.leaseMachineId = i) ∨
    ∃ d, d ≠ .granted ∧ d ≠ .alreadyHeld ∧
      c.requestAuthority conn i clientType profile windowOpen now = (d, c) := by
  unfold requestAuthority
  by_cases hbad : conn = 0 ∨ i.bytes = [] ∨ profile > authorityProfileMax
  · rw [if_pos hbad]
    exact .inr (.inr ⟨_, by simp, by simp, rfl⟩)
  rw [if_neg hbad]
  push Not at hbad
  obtain ⟨hconn, hi, hprofile⟩ := hbad
  by_cases hpermit : profilePermits profile clientType windowOpen = true
  · rw [if_neg (not_not.mpr hpermit)]
    by_cases hours : c.held now ∧ c.leaseMachineId.bytes = i.bytes
    · rw [if_pos hours]
      exact .inr (.inl ⟨rfl, hconn, hours.1, Identifier.ext hours.2⟩)
    · rw [if_neg hours]
      by_cases hdenied : c.held now ∧ ¬ mayPreempt clientType c.leaseClientType
      · rw [if_pos hdenied]
        exact .inr (.inr ⟨_, by simp, by simp, rfl⟩)
      · rw [if_neg hdenied]
        refine .inl ⟨rfl, hconn, hi, UInt8.not_lt.mp hprofile, hpermit, fun hheld => ?_⟩
        by_contra hno
        exact hdenied ⟨hheld, hno⟩
  · rw [if_pos hpermit]
    split
    · exact .inr (.inr ⟨_, by simp, by simp, rfl⟩)
    · exact .inr (.inr ⟨_, by simp, by simp, rfl⟩)

/-- With the state of the machine and the epoch: a transfer needs the current epoch
named and the pump at rest. -/
theorem requestAuthorityWithState_cases (c : SessionCore) (conn : UInt64) (i : Identifier)
    (clientType profile : UInt8) (windowOpen running : Bool) (epoch : UInt32) (now : UInt64) :
    (c.requestAuthorityWithState conn i clientType profile windowOpen running epoch now =
        (.granted, c.grant conn i clientType now) ∧ conn ≠ 0 ∧ i.bytes ≠ [] ∧
      (c.held now = true → c.leaseMachineId ≠ i →
        mayPreempt clientType c.leaseClientType = true ∧
        profilePermits profile clientType windowOpen = true ∧ profile ≤ authorityProfileMax ∧
        epoch ≠ 0 ∧ running = false)) ∨
    (c.requestAuthorityWithState conn i clientType profile windowOpen running epoch now =
        (.alreadyHeld, c.rebind conn now) ∧ conn ≠ 0 ∧ c.held now = true ∧
      c.leaseMachineId = i) ∨
    ∃ d, d ≠ .granted ∧ d ≠ .alreadyHeld ∧
      c.requestAuthorityWithState conn i clientType profile windowOpen running epoch now =
        (d, c) := by
  unfold requestAuthorityWithState
  simp only []
  split
  · exact .inr (.inr ⟨_, by simp, by simp, rfl⟩)
  · next hepoch =>
    split
    · exact .inr (.inr ⟨_, by simp, by simp, rfl⟩)
    · next hrunning =>
      rcases requestAuthority_cases c conn i clientType profile windowOpen now with h | h | h
      · obtain ⟨hr, hconn, hi, hprofile, hpermit, hpreempt⟩ := h
        refine .inl ⟨hr, hconn, hi, fun hheld hne => ?_⟩
        have hother : c.leaseHeldBy i = false := by
          simp only [leaseHeldBy, Bool.and_eq_false_iff, decide_eq_false_iff_not]
          exact .inr fun he => hne (Identifier.ext he)
        have htransfer := hpreempt hheld
        rw [hpermit, hheld, hother, htransfer] at hepoch hrunning
        refine ⟨htransfer, hpermit, hprofile, fun h0 => hepoch ⟨rfl, h0⟩, ?_⟩
        simpa using hrunning
      · exact .inr (.inl h)
      · exact .inr (.inr h)

theorem releaseAuthority_cases (c : SessionCore) (i : Identifier) :
    ((c.releaseAuthority i).1 = true ∧ EpochAdvanced c (c.releaseAuthority i).2) ∨
      c.releaseAuthority i = (false, c) := by
  unfold releaseAuthority
  split
  · exact .inr rfl
  · exact .inl ⟨rfl, by simp [EpochAdvanced, advanceEpoch]⟩

theorem tick_cases (c : SessionCore) (now : UInt64) :
    ((c.tick now).1 = true ∧ EpochAdvanced c (c.tick now).2) ∨ c.tick now = (false, c) := by
  unfold tick
  split
  · exact .inr rfl
  · exact .inl ⟨rfl, by simp [EpochAdvanced, advanceEpoch]⟩

theorem disconnect_owner (c : SessionCore) (conn : UInt64) :
    SameOwner c (c.disconnect conn).2 := by
  unfold disconnect
  split
  · exact .refl c
  · exact ⟨rfl, rfl⟩

/-- A heartbeat of the holder does not change the holder; of anyone else it could. -/
theorem acceptHeartbeat_owner (c : SessionCore) (conn : UInt64) {i : Identifier} (t : UInt8)
    (hb : Heartbeat) (now : UInt64) (hi : i.bytes ≠ []) (hholder : c.leaseMachineId = i) :
    SameOwner c (c.acceptHeartbeat conn i t hb now).2 := by
  unfold acceptHeartbeat
  split_ifs
  · exact .refl c
  · exact .refl c
  · exact .refl c
  · refine ⟨?_, leaseRecordHolder_epoch c i t⟩
    rw [hholder]
    exact leaseRecordHolder_holder c t hi

end SessionCore

open SessionCore

theorem handleHeartbeat_owner (c : SessionCore) (message : Message) (now : UInt64) :
    SameOwner c (handleHeartbeat c message now).2 := by
  unfold handleHeartbeat
  split
  · exact .refl c
  · split
    · exact .refl c
    · split
      · next hholder =>
        obtain ⟨hne, heq⟩ := hholder
        refine acceptHeartbeat_owner c _ _ _ _ ?_ (Identifier.ext heq)
        rw [← heq]
        exact hne
      · exact .refl c

/-- A command leaves the session alone or commits its result to the sequence cache. -/
theorem handleCommand_core (c : SessionCore) (message : Message) (action : MqttAction)
    (maxRpmMilli : Nat) (routed : Except Bytes Bytes) :
    (handleCommand c message action maxRpmMilli routed).2 = c ∨
      ∃ command payload result,
        (handleCommand c message action maxRpmMilli routed).2 =
          c.commitResult command payload result := by
  unfold handleCommand
  split
  · exact .inl rfl
  · split
    · exact .inl rfl
    · split
      · exact .inl rfl
      · split
        · exact .inl rfl
        · exact .inl rfl
        · exact .inl rfl
        · split
          · exact .inl rfl
          · exact .inl rfl
          · exact .inl rfl
          all_goals
            split
            · exact .inl rfl
            · exact .inr ⟨_, _, _, rfl⟩

theorem handleCommand_owner (c : SessionCore) (message : Message) (action : MqttAction)
    (maxRpmMilli : Nat) (routed : Except Bytes Bytes) :
    SameOwner c (handleCommand c message action maxRpmMilli routed).2 := by
  rcases handleCommand_core c message action maxRpmMilli routed with h | ⟨_, _, _, h⟩
  · rw [h]
    exact .refl c
  · rw [h]
    exact ⟨rfl, rfl⟩

/-- Where an admission ends up: refused without touching the session, or arbitrated. -/
theorem authorityAdmit_cases (sha256 : Bytes → Option Digest) (s : Session) (message : Message)
    (release : Bool) (ctx : AdmitContext) :
    ((authorityAdmit sha256 s message release ctx).2 = s ∧
      (authorityAdmit sha256 s message release ctx).1.stage ≠ .releaseAccepted ∧
      (authorityAdmit sha256 s message release ctx).1.stage ≠ .requestEvaluated) ∨
    ∃ req, decodeAuthorityRequest message.payload release = .ok req ∧
      req.session = s.core.session ∧
      s.dup.find req.session req.requestId release = none ∧
      (authorityAdmit sha256 s message release ctx).2.core =
        (arbitrate s.core message release ctx req).2.2.2 ∧
      (authorityAdmit sha256 s message release ctx).1.stage =
        (arbitrate s.core message release ctx req).1.stage ∧
      (authorityAdmit sha256 s message release ctx).1.requestResult =
        (arbitrate s.core message release ctx req).1.requestResult := by
  unfold authorityAdmit
  simp only []
  split
  · exact .inl ⟨rfl, by simp, by simp⟩
  · split
    · exact .inl ⟨rfl, by simp, by simp⟩
    · split
      · exact .inl ⟨rfl, by simp, by simp⟩
      · next req hdecode =>
        split
        · exact .inl ⟨rfl, by simp, by simp⟩
        · next hsession =>
          split
          · split
            · exact .inl ⟨rfl, by simp, by simp⟩
            · exact .inl ⟨rfl, by simp, by simp⟩
          · next hmiss =>
            exact .inr ⟨req, hdecode, not_not.mp hsession, hmiss, rfl, rfl, rfl⟩

/-- An arbitration changes ownership and advances the epoch, or neither. -/
theorem arbitrate_owner (c : SessionCore) (message : Message) (release : Bool) (ctx : AdmitContext)
    (req : AuthorityRequest) :
    let r := arbitrate c message release ctx req
    (r.1.stage = .releaseAccepted ∨ r.1.stage = .requestEvaluated ∧ r.1.requestResult = .granted) ∧
        EpochAdvanced c r.2.2.2 ∨
      ¬ (r.1.stage = .releaseAccepted ∨
          r.1.stage = .requestEvaluated ∧ r.1.requestResult = .granted) ∧
        SameOwner c r.2.2.2 := by
  simp only [arbitrate]
  split
  · split
    · exact .inr ⟨by simp, .refl c⟩
    · rcases releaseAuthority_cases c message.principal.identifier with ⟨h, he⟩ | h
      · exact .inl ⟨.inl (by simp [h]), he⟩
      · exact .inr ⟨by simp [h], by rw [h]; exact .refl c⟩
  · split
    · exact .inr ⟨by simp, .refl c⟩
    · rcases requestAuthorityWithState_cases c message.connectionId message.principal.identifier
        message.principal.clientType ctx.authorityProfile ctx.coreWindowOpen ctx.machineRunning
        req.authorityEpoch ctx.nowMs with ⟨h, -⟩ | ⟨h, -⟩ | ⟨d, hd, -, h⟩
      · rw [h]
        exact .inl ⟨.inr ⟨rfl, rfl⟩, grant_epoch _ _ _ _ _⟩
      · rw [h]
        exact .inr ⟨by simp, ⟨rfl, rfl⟩⟩
      · rw [h]
        exact .inr ⟨by simp [hd], .refl c⟩

/-- **One step**: the epoch is advanced exactly by the moves that change ownership, and
the others keep the holder. -/
theorem handle_owner (sha256 : Bytes → Option Digest) (s : Session) (ev : SessionEvent) :
    (s.handle sha256 ev).1.changesOwner = true ∧ EpochAdvanced s.core (s.handle sha256 ev).2.core ∨
      (s.handle sha256 ev).1.changesOwner = false ∧
        SameOwner s.core (s.handle sha256 ev).2.core := by
  obtain ⟨now, act⟩ := ev
  cases act with
  | authority message release profile windowOpen running =>
    simp only [Session.handle, SessionOutcome.changesOwner]
    rcases authorityAdmit_cases sha256 s message release ⟨profile, windowOpen, running, now⟩ with
      ⟨hs, hrel, heval⟩ | ⟨req, -, -, -, hcore, hstage, hresult⟩
    · rw [hs]
      exact .inr ⟨by simp [hrel, heval], .refl _⟩
    · rw [hcore, hstage, hresult]
      rcases arbitrate_owner s.core message release ⟨profile, windowOpen, running, now⟩ req with
        ⟨h, he⟩ | ⟨h, he⟩
      · exact .inl ⟨by simpa using h, he⟩
      · exact .inr ⟨by simpa using h, he⟩
  | heartbeat message => exact .inr ⟨rfl, handleHeartbeat_owner _ _ _⟩
  | command message action maxRpm routed => exact .inr ⟨rfl, handleCommand_owner _ _ _ _ _⟩
  | tick =>
    rcases tick_cases s.core now with ⟨h, he⟩ | h
    · exact .inl ⟨h, he⟩
    · simp only [Session.handle, SessionOutcome.changesOwner]
      rw [h]
      exact .inr ⟨rfl, .refl _⟩
  | disconnect conn => exact .inr ⟨rfl, disconnect_owner _ _⟩

/-! ## Runs -/

theorem SessionCore.EpochAdvanced.toNat {c d : SessionCore} (h : EpochAdvanced c d) :
    d.authorityEpoch.toNat = Epoch.next (2 ^ 32) c.authorityEpoch.toNat := by
  have hlt := c.authorityEpoch.toNat_lt
  have hadd : (c.authorityEpoch + 1).toNat = (c.authorityEpoch.toNat + 1) % 2 ^ 32 := by
    rw [UInt32.toNat_add]
    rfl
  rw [h]
  unfold Epoch.next
  by_cases hwrap : c.authorityEpoch.toNat + 1 = 2 ^ 32
  · have hz : c.authorityEpoch + 1 = 0 := by
      apply UInt32.toNat_inj.mp
      rw [hadd, hwrap]
      rfl
    rw [if_pos hwrap, if_pos hz]
    rfl
  · have hsum : (c.authorityEpoch + 1).toNat = c.authorityEpoch.toNat + 1 := by
      rw [hadd, Nat.mod_eq_of_lt (by omega)]
    have hz : c.authorityEpoch + 1 ≠ 0 := by
      intro h0
      rw [h0] at hsum
      cases hsum
    rw [if_neg hwrap, if_neg hz, hsum]

theorem SessionCore.EpochAdvanced.ne {c d : SessionCore} (h : EpochAdvanced c d) :
    d.authorityEpoch ≠ c.authorityEpoch := by
  intro he
  have hn := h.toNat
  rw [he] at hn
  exact Epoch.iterate_ne (m := 2 ^ 32) (n := 1) c.authorityEpoch.toNat_lt (by omega) (by omega)
    hn.symm

/-- The recorded holder is fenced by the authority epoch. -/
theorem session_fenced (sha256 : Bytes → Option Digest) :
    Fenced (sessionStep sha256) (2 ^ 32) (fun s => s.core.authorityEpoch.toNat)
      (fun s => s.core.leaseMachineId) (changesOwner sha256) where
  lt s := s.core.authorityEpoch.toNat_lt
  epoch_post := by
    rintro ⟨s, ev, t⟩ (rfl : t = (s.handle sha256 ev).2)
    unfold changesOwner
    rcases handle_owner sha256 s ev with ⟨hc, he⟩ | ⟨hc, he⟩
    · simp only [hc, if_true]
      exact he.toNat
    · simp only [hc, Bool.false_eq_true, if_false]
      rw [he.epoch]
  owner_post := by
    rintro ⟨s, ev, t⟩ (rfl : t = (s.handle sha256 ev).2) hadv
    rcases handle_owner sha256 s ev with ⟨hc, -⟩ | ⟨-, he⟩
    · exact absurd (hc.symm.trans hadv) (by decide)
    · exact he.holder

/-- A move changes ownership if and only if it changes the epoch. -/
theorem changesOwner_iff {sha256 : Bytes → Option Digest} {v : Move Session SessionEvent}
    (h : sessionStep sha256 v.pre v.ev v.post) :
    changesOwner sha256 v = true ↔ v.post.core.authorityEpoch ≠ v.pre.core.authorityEpoch := by
  obtain ⟨s, ev, t⟩ := v
  obtain rfl : t = (s.handle sha256 ev).2 := h
  rcases handle_owner sha256 s ev with ⟨hc, he⟩ | ⟨hc, he⟩
  · exact ⟨fun _ => he.ne, fun _ => hc⟩
  · exact ⟨fun h => absurd (hc.symm.trans h) (by decide), fun h => absurd he.epoch h⟩

/-- The number of epoch advances in a run. -/
def epochAdvances (ms : List (Move Session SessionEvent)) : Nat :=
  ms.countP fun v => v.post.core.authorityEpoch ≠ v.pre.core.authorityEpoch

theorem countP_changesOwner {sha256 : Bytes → Option Digest} {s : Session}
    {ms : List (Move Session SessionEvent)} (h : IsRun (sessionStep sha256) s ms) :
    ms.countP (changesOwner sha256) = epochAdvances ms := by
  refine List.countP_congr fun v hv => ?_
  rw [changesOwner_iff (h.step_of_mem v hv), decide_eq_true_eq]

theorem holder_change_advances_epoch (sha256 : Bytes → Option Digest) {s : Session}
    {ms : List (Move Session SessionEvent)} (h : IsRun (sessionStep sha256) s ms) :
    ((final s ms).core.leaseMachineId ≠ s.core.leaseMachineId →
      ∃ v ∈ ms, EpochAdvanced v.pre.core v.post.core) ∧
    (∀ v ∈ ms, changesOwner sha256 v = false →
      v.post.core.authorityEpoch = v.pre.core.authorityEpoch) ∧
    (s.core.authorityEpoch ≠ 0 → (final s ms).core.authorityEpoch ≠ 0) := by
  refine ⟨fun hne => ?_, fun v hv hc => ?_, fun h0 hz => ?_⟩
  · obtain ⟨⟨t, ev, u⟩, hv, hadv⟩ := (session_fenced sha256).exists_advance h hne
    refine ⟨_, hv, ?_⟩
    obtain rfl : u = (t.handle sha256 ev).2 := h.step_of_mem _ hv
    rcases handle_owner sha256 t ev with ⟨-, he⟩ | ⟨hc, -⟩
    · exact he
    · exact absurd (hc.symm.trans hadv) (by decide)
  · by_contra hne
    rw [(changesOwner_iff (h.step_of_mem v hv)).mpr hne] at hc
    cases hc
  · have hpos : 0 < s.core.authorityEpoch.toNat := by
      apply Nat.pos_of_ne_zero
      exact fun he => h0 (UInt32.toNat_inj.mp he)
    have := (session_fenced sha256).epoch_pos h hpos
    simp only [hz] at this
    cases this

/-- The moves a session makes on a list of events. -/
def sessionTrace (sha256 : Bytes → Option Digest) : Session → List SessionEvent →
    List (Move Session SessionEvent) :=
  trace fun s ev => (s.handle sha256 ev).2

theorem isRun_sessionTrace (sha256 : Bytes → Option Digest) (s : Session)
    (evs : List SessionEvent) : IsRun (sessionStep sha256) s (sessionTrace sha256 s evs) := by
  have hstep : ∀ s ev, sessionStep sha256 s ev (s.handle sha256 ev).2 := fun _ _ => rfl
  exact isRun_trace hstep s evs

def mbedtlsSha256 (payload : Bytes) : Option Digest := some (Sha256.digest payload)

/-- A message of the panel on connection 1. -/
def panelMessage (payload : Bytes) : Message where
  connectionId := 1
  payload := payload
  qos := 1
  retain := false
  policyAdmitted := true
  principal := ⟨panelId, machineClientHmi⟩

/-- A request of session `0123456789abcdef`. -/
def requestPayload (requestId authorityEpoch : Bytes) : Bytes :=
  txt "\x7b\"schema\":1,\"request_id\":\"" ++ requestId ++
    txt "\",\"session\":\"0123456789abcdef\",\"authority_epoch\":" ++ authorityEpoch ++ txt "\x7d"

def panelGrant : SessionEvent :=
  ⟨1000, .authority (panelMessage (requestPayload (txt "r-1") (txt "0"))) false
    authorityProfileArguscorePreferred false false⟩

/-- The panel's lease lapses after its connection is gone. -/
theorem holder_change_panel :
    let s := ((Session.start (txt "0123456789abcdef")).handle mbedtlsSha256 panelGrant).2
    let ms := sessionTrace mbedtlsSha256 s [⟨2000, .disconnect 1⟩, ⟨8000, .tick⟩]
    (∃ v ∈ ms, EpochAdvanced v.pre.core v.post.core) ∧
      (∀ v ∈ ms, changesOwner mbedtlsSha256 v = false →
        v.post.core.authorityEpoch = v.pre.core.authorityEpoch) ∧
      (final s ms).core.authorityEpoch ≠ 0 := by
  intro s ms
  obtain ⟨hadv, hkept, hnonzero⟩ := holder_change_advances_epoch mbedtlsSha256
    (isRun_sessionTrace mbedtlsSha256 s [⟨2000, .disconnect 1⟩, ⟨8000, .tick⟩])
  exact ⟨hadv (by decide +kernel), hkept, hnonzero (by decide +kernel)⟩

theorem commandAdmissionCheck_ok {c : SessionCore} {i : Identifier} {conn : UInt64}
    {command : MqttCommand} (h : commandAdmissionCheck c i conn command = .ok) :
    c.link = .online ∧ c.leaseMachineId.bytes ≠ [] ∧ c.leaseMachineId = i ∧
      c.leaseConnectionId = conn ∧ command.authorityEpoch = c.authorityEpoch := by
  unfold commandAdmissionCheck at h
  split at h
  · cases h
  · split at h
    · cases h
    · next hholder =>
      push Not at hholder
      obtain ⟨hlink, hne, hid, hconn⟩ := hholder
      split at h
      · cases h
      · next hepoch => exact ⟨hlink, hne, Identifier.ext hid, hconn, not_not.mp hepoch⟩

theorem admitted_command_not_delayed (sha256 : Bytes → Option Digest) {s : Session}
    {ms : List (Move Session SessionEvent)} (h : IsRun (sessionStep sha256) s ms)
    (hn : epochAdvances ms < 2 ^ 32 - 1) (i : Identifier) (conn : UInt64) (command : MqttCommand)
    (hepoch : command.authorityEpoch = s.core.authorityEpoch) :
    (commandAdmissionCheck (final s ms).core i conn command = .ok →
      (∀ v ∈ ms, changesOwner sha256 v = false ∧
        v.post.core.leaseMachineId = s.core.leaseMachineId ∧
        v.post.core.authorityEpoch = s.core.authorityEpoch) ∧
      s.core.leaseMachineId = i ∧ (final s ms).core.leaseMachineId = i ∧ i.bytes ≠ [] ∧
      (final s ms).core.leaseConnectionId = conn ∧ (final s ms).core.link = .online) ∧
    ((∃ v ∈ ms, changesOwner sha256 v = true) →
      commandAdmissionCheck (final s ms).core i conn command ≠ .ok) := by
  have hfence := session_fenced sha256
  have hkept : commandAdmissionCheck (final s ms).core i conn command = .ok →
      ∀ v ∈ ms, changesOwner sha256 v = false := by
    intro hok
    obtain ⟨-, -, -, -, he⟩ := commandAdmissionCheck_ok hok
    refine hfence.no_advance h ?_ (by rw [countP_changesOwner h]; exact hn)
    show (final s ms).core.authorityEpoch.toNat = s.core.authorityEpoch.toNat
    rw [← he, hepoch]
  refine ⟨fun hok => ?_, fun ⟨v, hv, hc⟩ hok => ?_⟩
  · obtain ⟨hlink, hne, hid, hconn, -⟩ := commandAdmissionCheck_ok hok
    obtain ⟨hall, hown, -⟩ := hfence.kept h (hkept hok)
    refine ⟨fun v hv => ⟨hkept hok v hv, (hall v hv).1, ?_⟩, ?_, hid, ?_, hconn, hlink⟩
    · exact UInt32.toNat_inj.mp (hall v hv).2
    · exact hown.symm.trans hid
    · rw [← hid]
      exact hne
  · have := hkept hok v hv
    rw [hc] at this
    cases this

/-- A stop command under the first epoch, after the grant. -/
theorem admitted_command_panel :
    let s := ((Session.start (txt "0123456789abcdef")).handle mbedtlsSha256 panelGrant).2
    let ms := sessionTrace mbedtlsSha256 s
      [⟨2000, .heartbeat (panelMessage (firstHeartbeat (txt "0123456789abcdef")))⟩, ⟨3000, .tick⟩]
    (∀ v ∈ ms, changesOwner mbedtlsSha256 v = false) ∧ s.core.leaseMachineId.bytes = txt "hmi-01" := by
  intro s ms
  obtain ⟨hok, -⟩ := admitted_command_not_delayed mbedtlsSha256
    (isRun_sessionTrace mbedtlsSha256 s
      [⟨2000, .heartbeat (panelMessage (firstHeartbeat (txt "0123456789abcdef")))⟩, ⟨3000, .tick⟩])
    (by decide +kernel) panelId 1
    ⟨txt "0123456789abcdef", 1, txt "c-1", 1, .stop, 0, true⟩ (by decide +kernel)
  obtain ⟨hall, hholder, -⟩ := hok (by decide +kernel)
  exact ⟨fun v hv => (hall v hv).1, congrArg Identifier.bytes hholder⟩

end Argus
