import ArgusPump.MqttRuns

/-!
# Transfers of a live lease

Who can take an unexpired lease from its holder, and whether a request that was
processed before can, once the duplicate cache has forgotten it.

    the holder of a live lease is replaced in one step → a transfer by the rules   (takes_transfer)
    a request that named 0 or the current epoch when first processed never takes
      a lease after an ownership change                                         (transfer_safety)
    a request that named a later epoch then does, once that epoch has come
                                                                        (redelivery_takes_lease)
-/

namespace Argus

open Interact SessionCore

/-- The move replaces the holder of an unexpired lease by another principal. -/
def Takes (v : Move Session SessionEvent) : Prop :=
  v.pre.core.held v.ev.nowMs = true ∧ v.post.core.leaseMachineId.bytes ≠ [] ∧
    v.post.core.leaseMachineId ≠ v.pre.core.leaseMachineId

instance : DecidablePred Takes := fun v => by
  unfold Takes
  infer_instance

/-- The move is an admissible transfer: an ArgusCore request against the panel or a service
tool on an integrated installation, with the pump at rest, naming the current epoch. -/
def Transfer (v : Move Session SessionEvent) : Prop :=
  ∃ message windowOpen req,
    v.ev.act = .authority message false authorityProfileArguscorePreferred windowOpen false ∧
    message.principal.clientType = machineClientArgusCommand ∧
    (v.pre.core.leaseClientType = machineClientHmi ∨
      v.pre.core.leaseClientType = machineClientServiceTool) ∧
    decodeAuthorityRequest message.payload false = .ok req ∧
    req.authorityEpoch ≠ 0 ∧ req.authorityEpoch = v.pre.core.authorityEpoch

theorem releaseAuthority_holder (c : SessionCore) (i : Identifier) :
    (c.releaseAuthority i).2.leaseMachineId = c.leaseMachineId ∨
      (c.releaseAuthority i).2.leaseMachineId.bytes = [] := by
  unfold releaseAuthority
  split
  · exact .inl rfl
  · exact .inr rfl

theorem tick_holder (c : SessionCore) (now : UInt64) :
    (c.tick now).2.leaseMachineId = c.leaseMachineId ∨ (c.tick now).2.leaseMachineId.bytes = [] := by
  unfold tick
  split
  · exact .inl rfl
  · exact .inr rfl

theorem profile_of_preempt {profile clientType holderType : UInt8} {windowOpen : Bool}
    (hpreempt : mayPreempt clientType holderType = true)
    (hpermit : profilePermits profile clientType windowOpen = true)
    (hle : profile ≤ authorityProfileMax) :
    clientType = machineClientArgusCommand ∧
      (holderType = machineClientHmi ∨ holderType = machineClientServiceTool) ∧
      profile = authorityProfileArguscorePreferred := by
  simp only [mayPreempt, Bool.and_eq_true, Bool.or_eq_true, decide_eq_true_eq] at hpreempt
  obtain ⟨rfl, hholder⟩ := hpreempt
  refine ⟨rfl, hholder, ?_⟩
  by_cases hstandalone : profile = authorityProfileStandaloneHmi
  · rw [hstandalone] at hpermit
    cases hpermit
  · have hle' : profile.toNat ≤ 1 := hle
    have hne : profile.toNat ≠ 0 := fun h => hstandalone (UInt8.toNat_inj.mp h)
    exact UInt8.toNat_inj.mp (show profile.toNat = 1 by omega)

/-- A request that takes a live lease is an admissible transfer. -/
theorem arbitrate_takes (c : SessionCore) (message : Message) (release : Bool)
    (ctx : AdmitContext) (req : AuthorityRequest) (hheld : c.held ctx.nowMs = true)
    (hne : (arbitrate c message release ctx req).2.2.2.leaseMachineId.bytes ≠ [])
    (hch : (arbitrate c message release ctx req).2.2.2.leaseMachineId ≠ c.leaseMachineId) :
    release = false ∧ message.principal.clientType = machineClientArgusCommand ∧
      (c.leaseClientType = machineClientHmi ∨ c.leaseClientType = machineClientServiceTool) ∧
      ctx.authorityProfile = authorityProfileArguscorePreferred ∧ ctx.machineRunning = false ∧
      req.authorityEpoch ≠ 0 ∧ req.authorityEpoch = c.authorityEpoch := by
  unfold arbitrate at hne hch
  cases release with
  | true =>
    simp only [if_true] at hne hch
    split at hch
    · exact absurd rfl hch
    · next hepoch =>
      rw [if_neg hepoch] at hne
      rcases releaseAuthority_holder c message.principal.identifier with h | h
      · exact absurd h hch
      · exact absurd h hne
  | false =>
    simp only [Bool.false_eq_true, if_false] at hne hch
    split at hch
    · exact absurd rfl hch
    · next hepoch =>
      rw [if_neg hepoch] at hne
      rcases requestAuthorityWithState_cases c message.connectionId message.principal.identifier
        message.principal.clientType ctx.authorityProfile ctx.coreWindowOpen ctx.machineRunning
        req.authorityEpoch ctx.nowMs with ⟨h, -, hi, htake⟩ | ⟨h, -⟩ | ⟨d, -, -, h⟩
      · have hother : c.leaseMachineId ≠ message.principal.identifier := by
          intro he
          rw [h] at hch
          exact hch ((grant_holder c _ _ _ hi).trans he.symm)
        obtain ⟨hpreempt, hpermit, hle, h0, hrun⟩ := htake hheld hother
        obtain ⟨htype, hholder, hprofile⟩ := profile_of_preempt hpreempt hpermit hle
        refine ⟨rfl, htype, hholder, hprofile, hrun, h0, ?_⟩
        by_contra hstale
        exact hepoch ⟨h0, hstale⟩
      · rw [h] at hch
        exact absurd rfl hch
      · rw [h] at hch
        exact absurd rfl hch

/-- **One step**: only an admissible transfer takes a live lease. -/
theorem takes_transfer {sha256 : Bytes → Option Digest} {v : Move Session SessionEvent}
    (hs : sessionStep sha256 v.pre v.ev v.post) (h : Takes v) : Transfer v := by
  obtain ⟨s, ⟨now, act⟩, t⟩ := v
  obtain rfl : t = (s.handle sha256 ⟨now, act⟩).2 := hs
  obtain ⟨hheld, hne, hch⟩ := h
  cases act with
  | authority message release profile windowOpen running =>
    rcases authorityAdmit_cases sha256 s message release ⟨profile, windowOpen, running, now⟩ with
      ⟨hsame, -⟩ | ⟨req, hdecode, -, -, hcore, -⟩
    · exact absurd (congrArg (fun u => u.core.leaseMachineId) hsame) hch
    · have hpost : (s.handle sha256 ⟨now, .authority message release profile windowOpen running⟩).2.core =
          (arbitrate s.core message release ⟨profile, windowOpen, running, now⟩ req).2.2.2 := hcore
      rw [hpost] at hne hch
      obtain ⟨rfl, htype, hholder, hprofile, hrunning, h0, hepoch⟩ :=
        arbitrate_takes s.core message release ⟨profile, windowOpen, running, now⟩ req hheld hne hch
      subst hprofile hrunning
      exact ⟨message, windowOpen, req, rfl, htype, hholder, hdecode, h0, hepoch⟩
  | heartbeat message => exact absurd (handleHeartbeat_owner s.core message now).holder hch
  | command message action maxRpm routed =>
    exact absurd (handleCommand_owner s.core message action maxRpm routed).holder hch
  | tick =>
    rcases tick_holder s.core now with h | h
    · exact absurd h hch
    · exact absurd h hne
  | disconnect conn => exact absurd (disconnect_owner s.core conn).holder hch

/-! ## Requests delivered twice -/

/-- Both moves process the request `req`. -/
def Redelivered (v w : Move Session SessionEvent) (req : AuthorityRequest) : Prop :=
  ∃ message message' profile profile' windowOpen windowOpen' running running',
    v.ev.act = .authority message false profile windowOpen running ∧
    w.ev.act = .authority message' false profile' windowOpen' running' ∧
    message'.payload = message.payload ∧ decodeAuthorityRequest message.payload false = .ok req

/-- Only admissible transfers take a live lease; and a request processed by `v`, for which
`K v req` holds, does not take one when ownership has changed since. -/
def TransferLaw (K : Move Session SessionEvent → AuthorityRequest → Prop)
    (ms : List (Move Session SessionEvent)) : Prop :=
  (∀ v ∈ ms, Takes v → Transfer v) ∧
  ∀ l v mid w r req, ms = l ++ v :: (mid ++ w :: r) → Redelivered v w req → K v req →
    0 < epochAdvances (v :: mid) → epochAdvances (v :: mid) < 2 ^ 32 - 1 → ¬ Takes w

/-- The request names 0, the current epoch, or one that fewer than `2^32 - 1` advances do
not come to. -/
def NamesNoLaterEpoch (v : Move Session SessionEvent) (req : AuthorityRequest) : Prop :=
  req.authorityEpoch = 0 ∨ req.authorityEpoch = v.pre.core.authorityEpoch ∨
    v.pre.core.authorityEpoch = 0 ∧ req.authorityEpoch = 0xFFFFFFFF

/-- The epoch after some advances, but not too many, is not one of those. -/
theorem epoch_later {sha256 : Bytes → Option Digest} {v : Move Session SessionEvent}
    {mid : List (Move Session SessionEvent)} {req : AuthorityRequest}
    (h : IsRun (sessionStep sha256) v.pre (v :: mid)) (hnames : NamesNoLaterEpoch v req)
    (hpos : 0 < epochAdvances (v :: mid)) (hlt : epochAdvances (v :: mid) < 2 ^ 32 - 1)
    (h0 : req.authorityEpoch ≠ 0) :
    (final v.pre (v :: mid)).core.authorityEpoch ≠ req.authorityEpoch := by
  intro heq
  have hfinal := (session_fenced sha256).epoch_final h
  rw [countP_changesOwner h, heq] at hfinal
  rcases hnames with hz | hcur | ⟨hz, hmax⟩
  · exact h0 hz
  · rw [hcur] at hfinal
    exact Epoch.iterate_ne v.pre.core.authorityEpoch.toNat_lt hpos hlt hfinal.symm
  · have hcount : (Epoch.next (2 ^ 32))^[epochAdvances (v :: mid)] 0 = epochAdvances (v :: mid) :=
      Epoch.iterate_zero (by omega)
    rw [hz, hmax] at hfinal
    have hlast : 2 ^ 32 - 1 = epochAdvances (v :: mid) := hfinal.trans hcount
    omega

theorem transfer_safety (sha256 : Bytes → Option Digest) {s : Session}
    {ms : List (Move Session SessionEvent)} (h : IsRun (sessionStep sha256) s ms) :
    TransferLaw NamesNoLaterEpoch ms := by
  refine ⟨fun v hv => takes_transfer (h.step_of_mem v hv), ?_⟩
  rintro l v mid w r req rfl hsame hnames hpos hlt htakes
  rw [isRun_append, ← List.cons_append, isRun_append] at h
  obtain ⟨-, hrun, hpre, hwstep, -⟩ := h
  have hvpre : v.pre = final s l := hrun.1
  rw [← hvpre] at hrun hpre
  obtain ⟨message', windowOpen', req', hact', -, -, hdecode', h0, hepoch⟩ :=
    takes_transfer hwstep htakes
  obtain ⟨message, message'', _, _, _, _, _, _, -, hact, hpayload, hdecode⟩ := hsame
  -- the transfer decodes the request that was decoded before
  rw [hact] at hact'
  cases hact'
  rw [hpayload, hdecode] at hdecode'
  cases hdecode'
  refine epoch_later hrun hnames hpos hlt h0 ?_
  rw [hepoch, hpre]

/-- A request of ArgusCore on connection 2. -/
def coreRequest (nowMs : UInt64) (requestId authorityEpoch : Bytes) : SessionEvent :=
  ⟨nowMs, .authority {
      connectionId := 2
      payload := requestPayload requestId authorityEpoch
      qos := 1
      retain := false
      policyAdmitted := true
      principal := ⟨⟨txt "core-01", by decide, by decide⟩, machineClientArgusCommand⟩ }
    false authorityProfileArguscorePreferred false false⟩

/-- ArgusCore takes the lease of the panel, naming the epoch of its grant. -/
theorem transfer_safety_core :
    let s := Session.start (txt "0123456789abcdef")
    let ms := sessionTrace mbedtlsSha256 s [panelGrant, coreRequest 2000 (txt "t-1") (txt "1")]
    TransferLaw NamesNoLaterEpoch ms ∧ ∃ v ∈ ms, Takes v := by
  intro s ms
  exact ⟨transfer_safety mbedtlsSha256 (isRun_sessionTrace mbedtlsSha256 s _), by decide +kernel⟩

/-- ArgusCore names epoch 1 before there is one, in sixteen requests: all are refused and
fill the duplicate cache.  The panel's grant evicts the first and begins epoch 1. -/
def earlyRequests : List SessionEvent :=
  ["b", "c", "d", "e", "f", "g", "h", "i", "j", "k", "l", "m", "n", "o", "p"].map
      (fun id => coreRequest 500 (txt id) (txt "1")) ++ [panelGrant]

theorem redelivery_takes_lease :
    ¬ ∀ session ms, IsRun (sessionStep mbedtlsSha256) (Session.start session) ms →
      TransferLaw (fun _ _ => True) ms := by
  intro h
  let s := Session.start (txt "0123456789abcdef")
  let first := coreRequest 500 (txt "a") (txt "1")
  let again := coreRequest 2000 (txt "a") (txt "1")
  let mid := sessionTrace mbedtlsSha256 (s.handle mbedtlsSha256 first).2 earlyRequests
  let t := final (s.handle mbedtlsSha256 first).2 mid
  have hrun := isRun_sessionTrace mbedtlsSha256 s (first :: (earlyRequests ++ [again]))
  have hsplit : sessionTrace mbedtlsSha256 s (first :: (earlyRequests ++ [again])) =
      [] ++ ⟨s, first, (s.handle mbedtlsSha256 first).2⟩ ::
        (mid ++ ⟨t, again, (t.handle mbedtlsSha256 again).2⟩ :: []) :=
    congrArg (_ :: ·) (trace_append _ _ _ _)
  have hreq : decodeAuthorityRequest (requestPayload (txt "a") (txt "1")) false =
      .ok ⟨1, txt "a", txt "0123456789abcdef", 1, [], false⟩ := rfl
  refine (h _ _ hrun).2 _ _ _ _ _ _ hsplit
    ⟨_, _, _, _, _, _, _, _, rfl, rfl, rfl, hreq⟩ trivial ?_ ?_ ?_
  · show 0 < epochAdvances (⟨s, first, (s.handle mbedtlsSha256 first).2⟩ :: mid)
    decide +kernel
  · show epochAdvances (⟨s, first, (s.handle mbedtlsSha256 first).2⟩ :: mid) < 2 ^ 32 - 1
    decide +kernel
  · show Takes ⟨t, again, (t.handle mbedtlsSha256 again).2⟩
    decide +kernel

end Argus
