import ArgusPump.MqttTransfer

/-!
# The commissioned profile

Who can become the lease holder under each authority profile.  The client type of a
principal is a field of its machine record, written at enrolment only, so the messages
of a run carry the type the directory has for their identifier (`Typed`).

    a client becomes the holder → by a request the profile permits    (handle_becomes)
    a step keeps the holder's type on record, and permitted           (HolderTyped.handle)
    the three rules of the profiles, over every run                   (commissioned_profile)
-/

namespace Argus

open Interact SessionCore

/-- A panel or a service tool. -/
def LocalClient (clientType : UInt8) : Prop :=
  clientType = machineClientHmi ∨ clientType = machineClientServiceTool

/-- The message comes with the type on record for its identifier. -/
def Message.Typed (clientTypeOf : Identifier → UInt8) (message : Message) : Prop :=
  message.principal.clientType = clientTypeOf message.principal.identifier

def SessionAct.Typed (clientTypeOf : Identifier → UInt8) : SessionAct → Prop
  | .authority message .. | .heartbeat message | .command message .. => message.Typed clientTypeOf
  | .tick | .disconnect _ => True

/-- Requests and releases are evaluated under this profile. -/
def SessionAct.Under (profile : UInt8) : SessionAct → Prop
  | .authority _ _ authorityProfile _ _ => authorityProfile = profile
  | _ => True

/-! ## What a request needs -/

theorem profilePermits_standalone {clientType : UInt8} {windowOpen : Bool}
    (h : profilePermits authorityProfileStandaloneHmi clientType windowOpen = true) :
    LocalClient clientType := by
  unfold profilePermits at h
  rw [if_pos rfl, Bool.or_eq_true, decide_eq_true_eq, decide_eq_true_eq] at h
  exact h

theorem profilePermits_window {clientType : UInt8} (h : LocalClient clientType) :
    profilePermits authorityProfileArguscorePreferred clientType true = false := by
  rcases h with rfl | rfl
  · rfl
  · rfl

/-- Without the permission of the profile nothing moves. -/
theorem requestAuthorityWithState_refused (c : SessionCore) (conn : UInt64) (i : Identifier)
    {clientType profile : UInt8} {windowOpen : Bool} (running : Bool) (epoch : UInt32)
    (now : UInt64) (h : profilePermits profile clientType windowOpen = false) :
    ∃ d, d ≠ .granted ∧ d ≠ .alreadyHeld ∧
      c.requestAuthorityWithState conn i clientType profile windowOpen running epoch now =
        (d, c) := by
  unfold requestAuthorityWithState requestAuthority
  simp only [h, Bool.false_and, Bool.false_eq_true, false_and, if_false, not_false_eq_true,
    if_true]
  split
  · exact ⟨_, by simp, by simp, rfl⟩
  · split
    · exact ⟨_, by simp, by simp, rfl⟩
    · exact ⟨_, by simp, by simp, rfl⟩

/-! ## Who may hold the lease -/

/-- The recorded type of the holder is the one of the directory, and `P` holds of it. -/
def HolderTyped (clientTypeOf : Identifier → UInt8) (P : UInt8 → Prop) (c : SessionCore) : Prop :=
  c.leaseMachineId.bytes ≠ [] →
    c.leaseClientType = clientTypeOf c.leaseMachineId ∧ P c.leaseClientType

section

variable {clientTypeOf : Identifier → UInt8} {P : UInt8 → Prop} {c : SessionCore}

theorem HolderTyped.of_eq {d : SessionCore} (hc : HolderTyped clientTypeOf P c)
    (hid : d.leaseMachineId = c.leaseMachineId) (htype : d.leaseClientType = c.leaseClientType) :
    HolderTyped clientTypeOf P d := by
  intro hne
  rw [hid] at hne ⊢
  rw [htype]
  exact hc hne

theorem HolderTyped.of_empty (h : c.leaseMachineId.bytes = []) :
    HolderTyped clientTypeOf P c :=
  fun hne => absurd h hne

theorem HolderTyped.leaseRecordHolder {i : Identifier} {t : UInt8}
    (htype : t = clientTypeOf i) (hP : P t) :
    HolderTyped clientTypeOf P (c.leaseRecordHolder i t) := by
  unfold SessionCore.leaseRecordHolder
  split
  · exact fun _ => ⟨htype, hP⟩
  · exact .of_empty rfl

theorem HolderTyped.arbitrate {message : Message} {release : Bool} {ctx : AdmitContext}
    {req : AuthorityRequest} (hc : HolderTyped clientTypeOf P c)
    (htyped : message.Typed clientTypeOf)
    (hP : profilePermits ctx.authorityProfile message.principal.clientType ctx.coreWindowOpen =
      true → P message.principal.clientType) :
    HolderTyped clientTypeOf P (arbitrate c message release ctx req).2.2.2 := by
  simp only [Argus.arbitrate]
  split
  · split
    · exact hc
    · show HolderTyped clientTypeOf P (c.releaseAuthority message.principal.identifier).2
      unfold releaseAuthority
      split
      · exact hc
      · exact .of_empty rfl
  · split
    · exact hc
    · rcases requestAuthorityWithState_cases c message.connectionId message.principal.identifier
        message.principal.clientType ctx.authorityProfile ctx.coreWindowOpen ctx.machineRunning
        req.authorityEpoch ctx.nowMs with ⟨h, -⟩ | ⟨h, -⟩ | ⟨d, -, -, h⟩
      · rw [h]
        -- granted, so the profile permits the requester
        refine HolderTyped.leaseRecordHolder htyped (hP ?_)
        by_contra hno
        obtain ⟨d, hd, -, h'⟩ := requestAuthorityWithState_refused c message.connectionId
          message.principal.identifier ctx.machineRunning req.authorityEpoch ctx.nowMs
          (Bool.eq_false_iff.mpr hno)
        rw [h] at h'
        exact hd (congrArg Prod.fst h').symm
      · rw [h]
        exact hc.of_eq rfl rfl
      · rw [h]
        exact hc

/-- A heartbeat writes the type of the holder anew; it is the same one. -/
theorem HolderTyped.handleHeartbeat {message : Message} {now : UInt64}
    (hc : HolderTyped clientTypeOf P c) (htyped : message.Typed clientTypeOf) :
    HolderTyped clientTypeOf P (handleHeartbeat c message now).2 := by
  unfold Argus.handleHeartbeat
  split
  · exact hc
  · split
    · exact hc
    · split
      · next hholder =>
        obtain ⟨htype, hP⟩ := hc hholder.1
        have hsame : message.principal.clientType = c.leaseClientType := by
          rw [htype, Identifier.ext hholder.2]
          exact htyped
        unfold acceptHeartbeat
        split_ifs
        · exact hc
        · exact hc
        · exact hc
        · refine HolderTyped.leaseRecordHolder (c := c) htyped ?_
          rw [hsame]
          exact hP
      · exact hc

end

/-- **One step** keeps who may hold the lease. -/
theorem HolderTyped.handle {clientTypeOf : Identifier → UInt8} {P : UInt8 → Prop} {s : Session}
    (sha256 : Bytes → Option Digest) (ev : SessionEvent) {profile : UInt8}
    (hs : HolderTyped clientTypeOf P s.core) (htyped : ev.act.Typed clientTypeOf)
    (hunder : ev.act.Under profile)
    (hP : ∀ t windowOpen, profilePermits profile t windowOpen = true → P t) :
    HolderTyped clientTypeOf P (s.handle sha256 ev).2.core := by
  obtain ⟨now, act⟩ := ev
  cases act with
  | authority message release authorityProfile windowOpen running =>
    obtain rfl : authorityProfile = profile := hunder
    rcases authorityAdmit_cases sha256 s message release
        ⟨authorityProfile, windowOpen, running, now⟩ with ⟨hsame, -⟩ | ⟨req, -, -, -, hcore, -⟩
    · show HolderTyped _ _ (authorityAdmit sha256 s message release _).2.core
      rw [hsame]
      exact hs
    · show HolderTyped _ _ (authorityAdmit sha256 s message release _).2.core
      rw [hcore]
      exact hs.arbitrate htyped (hP _ _)
  | heartbeat message => exact hs.handleHeartbeat htyped
  | command message action maxRpm routed =>
    show HolderTyped _ _ (handleCommand s.core message action maxRpm routed).2
    rcases handleCommand_core s.core message action maxRpm routed with h | ⟨_, _, _, h⟩
    · rw [h]
      exact hs
    · rw [h]
      exact hs.of_eq rfl rfl
  | tick =>
    show HolderTyped _ _ (s.core.tick now).2
    unfold SessionCore.tick
    split
    · exact hs
    · exact .of_empty rfl
  | disconnect conn =>
    show HolderTyped _ _ (s.core.disconnect conn).2
    unfold SessionCore.disconnect
    split
    · exact hs
    · exact hs.of_eq rfl rfl

/-- The move makes a principal the holder that was not. -/
def BecomesHolder (v : Move Session SessionEvent) : Prop :=
  v.post.core.leaseMachineId.bytes ≠ [] ∧
    v.post.core.leaseMachineId ≠ v.pre.core.leaseMachineId

/-- **One step**: a client becomes the holder by a request of its own that the profile
permits, not by a heartbeat. -/
theorem handle_becomes {sha256 : Bytes → Option Digest} {v : Move Session SessionEvent}
    (hs : sessionStep sha256 v.pre v.ev v.post) (h : BecomesHolder v) :
    ∃ message profile windowOpen running,
      v.ev.act = .authority message false profile windowOpen running ∧
      v.post.core.leaseMachineId = message.principal.identifier ∧
      profilePermits profile message.principal.clientType windowOpen = true := by
  obtain ⟨s, ⟨now, act⟩, t⟩ := v
  obtain rfl : t = (s.handle sha256 ⟨now, act⟩).2 := hs
  obtain ⟨hne, hch⟩ := h
  cases act with
  | authority message release profile windowOpen running =>
    rcases authorityAdmit_cases sha256 s message release ⟨profile, windowOpen, running, now⟩ with
      ⟨hsame, -⟩ | ⟨req, -, -, -, hcore, -⟩
    · exact absurd (congrArg (fun u => u.core.leaseMachineId) hsame) hch
    · have hpost : (s.handle sha256 ⟨now, .authority message release profile windowOpen running⟩).2.core =
          (arbitrate s.core message release ⟨profile, windowOpen, running, now⟩ req).2.2.2 := hcore
      simp only [hpost] at hne hch ⊢
      unfold arbitrate at hne hch ⊢
      cases release with
      | true =>
        simp only [if_true] at hne hch
        split at hch
        · exact absurd rfl hch
        · next hepoch =>
          rw [if_neg hepoch] at hne
          rcases releaseAuthority_holder s.core message.principal.identifier with h | h
          · exact absurd h hch
          · exact absurd h hne
      | false =>
        simp only [Bool.false_eq_true, if_false] at hne hch ⊢
        split at hch
        · exact absurd rfl hch
        · next hepoch =>
          rw [if_neg hepoch] at hne ⊢
          refine ⟨message, profile, windowOpen, running, rfl, ?_⟩
          by_cases hpermit :
              profilePermits profile message.principal.clientType windowOpen = true
          · rcases requestAuthorityWithState_cases s.core message.connectionId
              message.principal.identifier message.principal.clientType profile windowOpen running
              req.authorityEpoch now with ⟨h, -, hi, -⟩ | ⟨h, -⟩ | ⟨d, -, -, h⟩
            · rw [h]
              exact ⟨grant_holder _ _ _ _ hi, hpermit⟩
            · rw [h] at hch
              exact absurd rfl hch
            · rw [h] at hch
              exact absurd rfl hch
          · obtain ⟨d, -, -, h⟩ := requestAuthorityWithState_refused s.core message.connectionId
              message.principal.identifier running req.authorityEpoch now
              (Bool.eq_false_iff.mpr hpermit)
            rw [h] at hch
            exact absurd rfl hch
  | heartbeat message => exact absurd (handleHeartbeat_owner s.core message now).holder hch
  | command message action maxRpm routed =>
    exact absurd (handleCommand_owner s.core message action maxRpm routed).holder hch
  | tick =>
    rcases tick_holder s.core now with h | h
    · exact absurd h hch
    · exact absurd h hne
  | disconnect conn => exact absurd (disconnect_owner s.core conn).holder hch

/-- A request of a panel or a service tool in the open window leaves the core alone. -/
theorem handle_window (sha256 : Bytes → Option Digest) (s : Session) (now : UInt64)
    {message : Message} (running : Bool) (hlocal : LocalClient message.principal.clientType) :
    (s.handle sha256 ⟨now, .authority message false authorityProfileArguscorePreferred true
      running⟩).2.core = s.core := by
  rcases authorityAdmit_cases sha256 s message false
      ⟨authorityProfileArguscorePreferred, true, running, now⟩ with
    ⟨hsame, -⟩ | ⟨req, -, -, -, hcore, -⟩
  · exact congrArg Session.core hsame
  · refine Eq.trans hcore ?_
    simp only [arbitrate, Bool.false_eq_true, if_false]
    split
    · rfl
    · obtain ⟨d, -, -, h⟩ := requestAuthorityWithState_refused s.core message.connectionId
        message.principal.identifier running req.authorityEpoch now (profilePermits_window hlocal)
      rw [h]

/-! ## Runs -/

theorem holderTyped_run {sha256 : Bytes → Option Digest} {clientTypeOf : Identifier → UInt8}
    {P : UInt8 → Prop} {profile : UInt8} {session : Bytes} {ms : List (Move Session SessionEvent)}
    (h : IsRun (sessionStep sha256) (Session.start session) ms)
    (htyped : ∀ v ∈ ms, v.ev.act.Typed clientTypeOf) (hunder : ∀ v ∈ ms, v.ev.act.Under profile)
    (hP : ∀ t windowOpen, profilePermits profile t windowOpen = true → P t) :
    ∀ v ∈ ms, HolderTyped clientTypeOf P v.pre.core ∧ HolderTyped clientTypeOf P v.post.core := by
  refine (h.inv_of (I := fun s => HolderTyped clientTypeOf P s.core)
    (K := fun v => v.ev.act.Typed clientTypeOf ∧ v.ev.act.Under profile) (.of_empty rfl)
    (fun v hv => ⟨htyped v hv, hunder v hv⟩) ?_).1
  rintro ⟨s, ev, t⟩ hs (rfl : t = (s.handle sha256 ev).2) ⟨ht, hu⟩
  exact hs.handle sha256 ev ht hu hP

theorem commissioned_profile (sha256 : Bytes → Option Digest) {session : Bytes}
    {ms : List (Move Session SessionEvent)}
    (h : IsRun (sessionStep sha256) (Session.start session) ms) :
    ((∀ v ∈ ms, v.ev.act.Under authorityProfileStandaloneHmi) →
      (∀ v ∈ ms, BecomesHolder v → ∃ message windowOpen running,
        v.ev.act = .authority message false authorityProfileStandaloneHmi windowOpen running ∧
        v.post.core.leaseMachineId = message.principal.identifier ∧
        LocalClient message.principal.clientType) ∧
      ∀ clientTypeOf, (∀ v ∈ ms, v.ev.act.Typed clientTypeOf) →
        ∀ v ∈ ms, v.post.core.leaseMachineId.bytes ≠ [] →
          v.post.core.leaseClientType = clientTypeOf v.post.core.leaseMachineId ∧
          LocalClient v.post.core.leaseClientType) ∧
    ((∀ v ∈ ms, v.ev.act.Under authorityProfileArguscorePreferred) →
      (∀ v ∈ ms, ∀ message running,
        v.ev.act = .authority message false authorityProfileArguscorePreferred true running →
        LocalClient message.principal.clientType → v.post.core = v.pre.core) ∧
      ∀ v ∈ ms, Takes v → v.pre.core.leaseClientType ≠ machineClientArgusCommand ∧
        ∀ clientTypeOf, (∀ w ∈ ms, w.ev.act.Typed clientTypeOf) →
          clientTypeOf v.pre.core.leaseMachineId ≠ machineClientArgusCommand) := by
  refine ⟨fun hunder => ⟨fun v hv hbecomes => ?_, fun clientTypeOf htyped v hv => ?_⟩,
    fun hunder => ⟨fun v hv message running hact hlocal => ?_, fun v hv htakes => ?_⟩⟩
  · obtain ⟨message, profile, windowOpen, running, hact, hholder, hpermit⟩ :=
      handle_becomes (h.step_of_mem v hv) hbecomes
    have hprofile := hunder v hv
    rw [hact] at hprofile
    obtain rfl : profile = authorityProfileStandaloneHmi := hprofile
    exact ⟨message, windowOpen, running, hact, hholder, profilePermits_standalone hpermit⟩
  · exact (holderTyped_run h htyped hunder (fun _ _ => profilePermits_standalone) v hv).2
  · obtain ⟨s, ⟨now, act⟩, t⟩ := v
    obtain rfl : t = (s.handle sha256 ⟨now, act⟩).2 := h.step_of_mem _ hv
    obtain rfl : act = _ := hact
    exact handle_window sha256 s now running hlocal
  · obtain ⟨_, _, _, -, -, hholder, -⟩ := takes_transfer (h.step_of_mem v hv) htakes
    have hother : v.pre.core.leaseClientType ≠ machineClientArgusCommand := by
      rcases hholder with h | h
      · rw [h]
        decide
      · rw [h]
        decide
    refine ⟨hother, fun clientTypeOf htyped hcore => hother ?_⟩
    have hne : v.pre.core.leaseMachineId.bytes ≠ [] := by
      have hheld := htakes.1
      unfold SessionCore.held at hheld
      rw [Bool.and_eq_true, decide_eq_true_eq] at hheld
      exact hheld.1
    have hrecorded := (holderTyped_run (P := fun _ => True) h htyped hunder
      fun _ _ _ => trivial) v hv
    exact (hrecorded.1 hne).1.trans hcore

/-- The panel on a standalone pump, its request and its first heartbeat. -/
theorem commissioned_profile_panel :
    let s := Session.start (txt "0123456789abcdef")
    let ms := sessionTrace mbedtlsSha256 s
      [⟨1000, .authority (panelMessage (requestPayload (txt "r-1") (txt "0"))) false
          authorityProfileStandaloneHmi false false⟩,
        ⟨2000, .heartbeat (panelMessage (firstHeartbeat (txt "0123456789abcdef")))⟩]
    (∀ v ∈ ms, LocalClient v.post.core.leaseClientType) ∧ ∃ v ∈ ms, BecomesHolder v := by
  intro s ms
  obtain ⟨hstandalone, -⟩ := commissioned_profile mbedtlsSha256 (isRun_sessionTrace mbedtlsSha256 s
    [⟨1000, .authority (panelMessage (requestPayload (txt "r-1") (txt "0"))) false
        authorityProfileStandaloneHmi false false⟩,
      ⟨2000, .heartbeat (panelMessage (firstHeartbeat (txt "0123456789abcdef")))⟩])
  obtain ⟨-, htype⟩ := hstandalone (by
    intro v hv
    have hev := ev_mem_of_trace hv
    rcases List.mem_pair.mp hev with h | h <;> rw [h]
    · rfl
    · trivial)
  have hholder : ∀ v ∈ ms, v.post.core.leaseMachineId.bytes ≠ [] := by decide +kernel
  refine ⟨fun v hv => ?_, by unfold BecomesHolder; decide +kernel⟩
  refine (htype (fun _ => machineClientHmi) ?_ v hv (hholder v hv)).2
  intro w hw
  rcases List.mem_pair.mp (ev_mem_of_trace hw) with h | h <;> rw [h]
  · rfl
  · rfl

end Argus
