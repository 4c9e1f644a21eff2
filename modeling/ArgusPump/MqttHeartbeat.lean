import ArgusPump.MqttDeadline

/-!
# Heartbeat counters of a connection

Which counters are accepted on one connection from its first message to its disconnect.
The guard of the core knows one connection and one counter; the history of a run knows
the last counter accepted on each.

    the guard names a connection with a history → it has its last counter    (GuardKnows.step)
    no grant on a connection with a history, no way back to one → counters
      accepted on a connection are each newer than the last          (heartbeat_counters_increase)
    after a release and a new grant the same heartbeat is accepted again
                                                                     (heartbeat_accepted_twice)
-/

namespace Argus

open Interact SessionCore

/-! ## The history of a run -/

/-- The connection and the counter of an accepted heartbeat. -/
def acceptedCounter (v : Move Session SessionEvent) : Option (UInt64 × UInt32) :=
  match v.ev.act with
  | .heartbeat message =>
    match decodeHeartbeat message.payload with
    | .ok heartbeat =>
      if (handleHeartbeat v.pre.core message v.ev.nowMs).1 = .handled espOk then
        some (message.connectionId, heartbeat.counter)
      else none
    | .error _ => none
  | _ => none

/-- The last counter accepted on each connection since it connected. -/
abbrev HeartbeatHistory := UInt64 → Option UInt32

def HeartbeatHistory.note (hist : HeartbeatHistory) (v : Move Session SessionEvent) :
    HeartbeatHistory :=
  match v.ev.act with
  | .disconnect connectionId => Function.update hist connectionId none
  | _ =>
    match acceptedCounter v with
    | some (connectionId, counter) => Function.update hist connectionId (some counter)
    | none => hist

def heartbeatHistory (ms : List (Move Session SessionEvent)) : HeartbeatHistory :=
  ms.foldl HeartbeatHistory.note fun _ => none

/-- Each counter accepted on a connection is newer than the one before. -/
def CountersIncrease (ms : List (Move Session SessionEvent)) : Prop :=
  ∀ l v r, ms = l ++ v :: r → ∀ conn counter last, acceptedCounter v = some (conn, counter) →
    heartbeatHistory l conn = some last → sessionIsNewer counter last = true

/-- On a connection with a history no request is granted, and the holder comes there only
while the guard names it. -/
def KeepsGuard (sha256 : Bytes → Option Digest) (hist : HeartbeatHistory)
    (v : Move Session SessionEvent) : Prop :=
  match v.ev.act with
  | .authority message false _ _ _ =>
    hist message.connectionId ≠ none →
      (v.pre.handle sha256 v.ev).1.changesOwner = false ∧
      (v.pre.core.held v.ev.nowMs = true →
        v.pre.core.leaseMachineId = message.principal.identifier →
        v.pre.core.heartbeatConnectionId = message.connectionId)
  | .heartbeat message =>
    hist message.connectionId ≠ none →
      v.pre.core.leaseMachineId = message.principal.identifier →
      v.pre.core.heartbeatConnectionId = message.connectionId
  | _ => True

/-! ## The guard and the history -/

/-- The guard has the last counter of the connection it names; no connection is 0. -/
structure GuardKnows (hist : HeartbeatHistory) (c : SessionCore) : Prop where
  zero : hist 0 = none
  nonzero : ∀ conn, hist conn ≠ some 0
  last : ∀ k, hist c.heartbeatConnectionId = some k → c.heartbeatCounter = k

theorem GuardKnows.of_eq {hist : HeartbeatHistory} {c d : SessionCore} (h : GuardKnows hist c)
    (hconn : d.heartbeatConnectionId = c.heartbeatConnectionId)
    (hcounter : d.heartbeatCounter = c.heartbeatCounter) : GuardKnows hist d where
  zero := h.zero
  nonzero := h.nonzero
  last k hk := by
    rw [hcounter]
    rw [hconn] at hk
    exact h.last k hk

/-- The guard names a connection without a history. -/
theorem GuardKnows.of_none {hist : HeartbeatHistory} {c d : SessionCore} (h : GuardKnows hist c)
    (hnone : hist d.heartbeatConnectionId = none) : GuardKnows hist d where
  zero := h.zero
  nonzero := h.nonzero
  last k hk := by
    rw [hnone] at hk
    cases hk

@[simp] theorem leaseRecordHolder_heartbeatConnectionId (c : SessionCore) (i : Identifier)
    (t : UInt8) : (c.leaseRecordHolder i t).heartbeatConnectionId = c.heartbeatConnectionId := by
  unfold leaseRecordHolder
  split <;> rfl

@[simp] theorem leaseRecordHolder_heartbeatCounter (c : SessionCore) (i : Identifier)
    (t : UInt8) : (c.leaseRecordHolder i t).heartbeatCounter = c.heartbeatCounter := by
  unfold leaseRecordHolder
  split <;> rfl

theorem GuardKnows.arbitrate {hist : HeartbeatHistory} {c : SessionCore} {message : Message}
    {release : Bool} {ctx : AdmitContext} {req : AuthorityRequest} (h : GuardKnows hist c)
    (hgrant : release = false → hist message.connectionId ≠ none →
      (arbitrate c message release ctx req).1.stage ≠ .requestEvaluated ∨
      (arbitrate c message release ctx req).1.requestResult ≠ .granted)
    (hback : release = false → hist message.connectionId ≠ none → c.held ctx.nowMs = true →
      c.leaseMachineId = message.principal.identifier →
      c.heartbeatConnectionId = message.connectionId) :
    GuardKnows hist (arbitrate c message release ctx req).2.2.2 := by
  unfold Argus.arbitrate at hgrant ⊢
  cases release with
  | true =>
    simp only [if_true]
    split
    · exact h
    · dsimp only
      unfold releaseAuthority
      split
      · exact h
      · exact h.of_none h.zero
  | false =>
    replace hgrant := hgrant rfl
    simp only [Bool.false_eq_true, if_false] at hgrant ⊢
    split
    · exact h
    · next hepoch =>
      simp only [if_neg hepoch] at hgrant
      rcases requestAuthorityWithState_cases c message.connectionId message.principal.identifier
        message.principal.clientType ctx.authorityProfile ctx.coreWindowOpen ctx.machineRunning
        req.authorityEpoch ctx.nowMs with ⟨hr, -⟩ | ⟨hr, -, hheld, hholder⟩ | ⟨d, -, -, hr⟩
      · rw [hr] at hgrant ⊢
        refine h.of_none ?_
        by_contra hhist
        rcases hgrant hhist with hno | hno
        · exact hno rfl
        · exact hno rfl
      · rw [hr]
        by_cases hsame : c.heartbeatConnectionId = message.connectionId
        · refine h.of_eq hsame.symm ?_
          show (if c.heartbeatConnectionId ≠ message.connectionId then 0 else c.heartbeatCounter) = _
          rw [if_neg (not_not.mpr hsame)]
        · refine h.of_none ?_
          by_contra hhist
          exact hsame (hback rfl hhist hheld hholder)
      · rw [hr]
        exact h

/-- A heartbeat is dropped, or it is the holder's and newer than what the guard has. -/
theorem handleHeartbeat_cases (c : SessionCore) (message : Message) (now : UInt64) :
    ((handleHeartbeat c message now).1 ≠ .handled espOk ∧
      (handleHeartbeat c message now).2 = c) ∨
    ∃ heartbeat, decodeHeartbeat message.payload = .ok heartbeat ∧
      (handleHeartbeat c message now).1 = .handled espOk ∧ message.connectionId ≠ 0 ∧
      c.leaseMachineId = message.principal.identifier ∧
      (c.heartbeatConnectionId = message.connectionId → c.heartbeatCounter ≠ 0 →
        sessionIsNewer heartbeat.counter c.heartbeatCounter = true) ∧
      (handleHeartbeat c message now).2.heartbeatConnectionId = message.connectionId ∧
      (handleHeartbeat c message now).2.heartbeatCounter = heartbeat.counter := by
  unfold handleHeartbeat
  split
  · exact .inl ⟨by simp, rfl⟩
  · split
    · exact .inl ⟨by simp, rfl⟩
    · next heartbeat hdecode =>
      split
      · next hholder =>
        simp only [acceptHeartbeat]
        split
        · exact .inl ⟨by simp [espErrInvalidArg, espOk], rfl⟩
        · next hbad =>
          split
          · exact .inl ⟨by simp [espErrInvalidState, espOk], rfl⟩
          · split
            · exact .inl ⟨by simp [espErrInvalidState, espOk], rfl⟩
            · next hguard =>
              refine .inr ⟨heartbeat, hdecode, rfl, fun h0 => hbad (.inl h0),
                Identifier.ext hholder.2, fun hconn hcounter => ?_, rfl, rfl⟩
              by_contra hold
              exact hguard ⟨hconn, hcounter, hold⟩
      · exact .inl ⟨by simp, rfl⟩

theorem GuardKnows.authority {sha256 : Bytes → Option Digest} {hist : HeartbeatHistory}
    {s t : Session} {now : UInt64} {message : Message} {release : Bool} {profile : UInt8}
    {windowOpen running : Bool} (h : GuardKnows hist s.core)
    (hkeeps : KeepsGuard sha256 hist
      ⟨s, ⟨now, .authority message release profile windowOpen running⟩, t⟩) :
    GuardKnows hist (authorityAdmit sha256 s message release
      ⟨profile, windowOpen, running, now⟩).2.core := by
  rcases authorityAdmit_cases sha256 s message release ⟨profile, windowOpen, running, now⟩ with
    ⟨hsame, -⟩ | ⟨req, -, -, -, hcore, hstage, hresult⟩
  · rw [hsame]
    exact h
  · rw [hcore]
    refine h.arbitrate ?_ ?_
    · rintro rfl hhist
      obtain ⟨hno, -⟩ := hkeeps hhist
      simp only [Session.handle, SessionOutcome.changesOwner, Bool.or_eq_false_iff,
        Bool.and_eq_false_iff, decide_eq_false_iff_not, hstage, hresult] at hno
      exact hno.2
    · rintro rfl hhist hheld hholder
      exact (hkeeps hhist).2 hheld hholder

/-- A counter accepted on the connection the guard names. -/
theorem GuardKnows.accept {hist : HeartbeatHistory} {c d : SessionCore} {conn : UInt64}
    {counter : UInt32} (h : GuardKnows hist c) (hconn : conn ≠ 0) (hcounter : counter ≠ 0)
    (hconn' : d.heartbeatConnectionId = conn) (hcounter' : d.heartbeatCounter = counter) :
    GuardKnows (Function.update hist conn (some counter)) d := by
  refine ⟨?_, fun other => ?_, fun k hk => ?_⟩
  · rw [Function.update_of_ne hconn.symm]
    exact h.zero
  · by_cases hother : other = conn
    · rw [hother, Function.update_self, Ne, Option.some.injEq]
      exact hcounter
    · rw [Function.update_of_ne hother]
      exact h.nonzero other
  · rw [hconn', Function.update_self] at hk
    rw [hcounter', Option.some.inj hk]

theorem GuardKnows.forget {hist : HeartbeatHistory} {c : SessionCore} (h : GuardKnows hist c)
    (conn : UInt64) : GuardKnows (Function.update hist conn none) c := by
  refine ⟨?_, fun other => ?_, fun k hk => ?_⟩
  · by_cases h0 : (0 : UInt64) = conn
    · rw [h0, Function.update_self]
    · rw [Function.update_of_ne h0]
      exact h.zero
  · by_cases hother : other = conn
    · rw [hother, Function.update_self]
      exact Option.some_ne_none 0 |>.symm
    · rw [Function.update_of_ne hother]
      exact h.nonzero other
  · by_cases hguard : c.heartbeatConnectionId = conn
    · rw [hguard, Function.update_self] at hk
      cases hk
    · rw [Function.update_of_ne hguard] at hk
      exact h.last k hk

/-- With a history on its connection, the guard is what a heartbeat is compared with. -/
theorem GuardKnows.newer {hist : HeartbeatHistory} {c : SessionCore} {conn : UInt64}
    {counter last : UInt32} (h : GuardKnows hist c) (hlast : hist conn = some last)
    (hguard : c.heartbeatConnectionId = conn)
    (hnewer : c.heartbeatConnectionId = conn → c.heartbeatCounter ≠ 0 →
      sessionIsNewer counter c.heartbeatCounter = true) :
    sessionIsNewer counter last = true := by
  have hcounter : c.heartbeatCounter = last := by
    refine h.last last ?_
    rw [hguard]
    exact hlast
  have hnonzero : last ≠ 0 := by
    rintro rfl
    exact h.nonzero _ hlast
  rw [← hcounter]
  exact hnewer hguard (by rw [hcounter]; exact hnonzero)

/-- **One step** keeps what the guard knows, and accepts no counter but a newer one. -/
theorem GuardKnows.step {sha256 : Bytes → Option Digest} {hist : HeartbeatHistory}
    {v : Move Session SessionEvent} (hs : sessionStep sha256 v.pre v.ev v.post)
    (hkeeps : KeepsGuard sha256 hist v) (h : GuardKnows hist v.pre.core) :
    GuardKnows (hist.note v) v.post.core ∧
      ∀ conn counter last, acceptedCounter v = some (conn, counter) → hist conn = some last →
        sessionIsNewer counter last = true := by
  obtain ⟨s, ⟨now, act⟩, t⟩ := v
  obtain rfl : t = (s.handle sha256 ⟨now, act⟩).2 := hs
  cases act with
  | authority => exact ⟨h.authority hkeeps, fun _ _ _ hc => by cases hc⟩
  | heartbeat message =>
    rcases handleHeartbeat_cases s.core message now with
      ⟨hno, hsame⟩ | ⟨heartbeat, hdecode, hok, hconn, hholder, hnewer, hconn', hcounter'⟩
    · have hnone : acceptedCounter ⟨s, ⟨now, .heartbeat message⟩,
          (s.handle sha256 ⟨now, .heartbeat message⟩).2⟩ = none := by
        unfold acceptedCounter
        dsimp only
        split
        · exact if_neg hno
        · rfl
      rw [hnone]
      refine ⟨?_, fun _ _ _ hc => by cases hc⟩
      unfold HeartbeatHistory.note
      rw [hnone]
      show GuardKnows hist (handleHeartbeat s.core message now).2
      rw [hsame]
      exact h
    · have hsome : acceptedCounter ⟨s, ⟨now, .heartbeat message⟩,
          (s.handle sha256 ⟨now, .heartbeat message⟩).2⟩ =
          some (message.connectionId, heartbeat.counter) := by
        unfold acceptedCounter
        dsimp only
        rw [hdecode]
        exact if_pos hok
      rw [hsome]
      refine ⟨?_, fun conn counter last heq hlast => ?_⟩
      · unfold HeartbeatHistory.note
        rw [hsome]
        exact h.accept hconn (decodeHeartbeat_counter hdecode) hconn' hcounter'
      · obtain ⟨rfl, rfl⟩ := Prod.mk.inj (Option.some.inj heq)
        have hguard : s.core.heartbeatConnectionId = message.connectionId := by
          refine hkeeps ?_ hholder
          rw [hlast]
          simp
        exact h.newer hlast hguard hnewer
  | command message action maxRpm routed =>
    refine ⟨?_, fun _ _ _ hc => by cases hc⟩
    show GuardKnows hist (handleCommand s.core message action maxRpm routed).2
    rcases handleCommand_core s.core message action maxRpm routed with hc | ⟨_, _, _, hc⟩
    · rw [hc]
      exact h
    · rw [hc]
      exact h.of_eq rfl rfl
  | tick =>
    refine ⟨?_, fun _ _ _ hc => by cases hc⟩
    show GuardKnows hist (s.core.tick now).2
    unfold SessionCore.tick
    split
    · exact h
    · exact h.of_eq (leaseRecordHolder_heartbeatConnectionId _ _ _)
        (leaseRecordHolder_heartbeatCounter _ _ _)
  | disconnect conn =>
    refine ⟨?_, fun _ _ _ hc => by cases hc⟩
    show GuardKnows (Function.update hist conn none) (s.core.disconnect conn).2
    have hforget := h.forget conn
    unfold SessionCore.disconnect
    split
    · exact hforget
    · exact hforget.of_none hforget.zero

/-! ## Runs -/

theorem guardKnows_run {sha256 : Bytes → Option Digest} {session : Bytes}
    {ms : List (Move Session SessionEvent)}
    (h : IsRun (sessionStep sha256) (Session.start session) ms)
    (hkeeps : ∀ l v r, ms = l ++ v :: r → KeepsGuard sha256 (heartbeatHistory l) v) :
    GuardKnows (heartbeatHistory ms) (final (Session.start session) ms).core := by
  refine h.inv_past_of (I := fun s ms => GuardKnows (heartbeatHistory ms) s.core) ?_ hkeeps
    fun l v hguard hs hkeep => ?_
  · refine ⟨rfl, fun _ hc => ?_, fun _ hk => ?_⟩
    · cases hc
    · cases hk
  · rw [heartbeatHistory, List.foldl_append]
    exact (hguard.step hs hkeep).1

theorem heartbeat_counters_increase (sha256 : Bytes → Option Digest) {session : Bytes}
    {ms : List (Move Session SessionEvent)}
    (h : IsRun (sessionStep sha256) (Session.start session) ms)
    (hkeeps : ∀ l v r, ms = l ++ v :: r → KeepsGuard sha256 (heartbeatHistory l) v) :
    CountersIncrease ms := by
  rintro l v r rfl
  rw [isRun_append] at h
  obtain ⟨hl, hpre, hs, -⟩ := h
  have hguard := guardKnows_run hl fun l' w r' heq =>
    hkeeps l' w (r' ++ v :: r) (by rw [heq]; simp)
  rw [← hpre] at hguard
  exact (hguard.step hs (hkeeps l v r rfl)).2

/-! ## The panel's heartbeats -/

/-- A heartbeat of the panel on connection 1, counter 1. -/
def panelHeartbeat (nowMs : UInt64) : SessionEvent :=
  ⟨nowMs, .heartbeat (panelMessage (firstHeartbeat (txt "0123456789abcdef")))⟩

/-- Its request and a heartbeat that comes twice: the second is refused. -/
theorem panel_counters_increase :
    let s := Session.start (txt "0123456789abcdef")
    let ms := sessionTrace mbedtlsSha256 s [panelGrant, panelHeartbeat 2000, panelHeartbeat 3000]
    CountersIncrease ms ∧ heartbeatHistory ms 1 = some 1 := by
  intro s ms
  refine ⟨heartbeat_counters_increase mbedtlsSha256 (isRun_sessionTrace mbedtlsSha256 s _) ?_,
    by decide +kernel⟩
  refine forall_split_cons.mpr ⟨?_, forall_split_cons.mpr ⟨?_, forall_split_cons.mpr
    ⟨?_, forall_split_nil⟩⟩⟩
  · exact fun hno => absurd rfl hno
  · intro _ _
    decide +kernel
  · intro _ _
    decide +kernel

/-- The panel releases its lease and is granted it again on the connection it has: the
heartbeat accepted before is accepted once more. -/
theorem heartbeat_accepted_twice :
    ¬ ∀ session ms, IsRun (sessionStep mbedtlsSha256) (Session.start session) ms →
      CountersIncrease ms := by
  intro h
  let s := Session.start (txt "0123456789abcdef")
  let evs : List SessionEvent := [panelGrant, panelHeartbeat 2000,
    ⟨3000, .authority (panelMessage (requestPayload (txt "r-2") (txt "1"))) true
      authorityProfileArguscorePreferred false false⟩,
    ⟨4000, .authority (panelMessage (requestPayload (txt "r-3") (txt "0"))) false
      authorityProfileArguscorePreferred false false⟩]
  let l := sessionTrace mbedtlsSha256 s evs
  let t := final s l
  let again : Move Session SessionEvent :=
    ⟨t, panelHeartbeat 5000, (t.handle mbedtlsSha256 (panelHeartbeat 5000)).2⟩
  have hrun := isRun_sessionTrace mbedtlsSha256 s (evs ++ [panelHeartbeat 5000])
  have hsplit : sessionTrace mbedtlsSha256 s (evs ++ [panelHeartbeat 5000]) = l ++ again :: [] :=
    trace_append _ _ _ _
  have hnewer := h _ _ hrun l again [] hsplit 1 1 1 (by decide +kernel) (by decide +kernel)
  cases hnewer

end Argus
