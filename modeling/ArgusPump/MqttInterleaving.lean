import ArgusPump.MqttCommand

/-!
# Commands and the other tasks

What the expiry tick, the disconnect callback and `argus_mqtt_runtime_prepare_start` do to
a command between its admission and its dispatch or commit.

    nothing of the kind in between ↔ commands are dispatched under the session, holder,
      connection and epoch they were admitted under                 (dispatch_current_iff)
    no restart between admission and commit ↔ the sequence record comes from commands
      admitted under its session                                       (record_own_iff)
-/

namespace Argus

open Interact SessionCore

/-! ## The binding a command was admitted under -/

/-- Session, holder, connection and epoch are the ones of the command and its message. -/
structure Current (c : SessionCore) (message : Message) (command : MqttCommand) : Prop where
  session : c.session = command.session
  holder : c.leaseMachineId = message.principal.identifier
  connection : c.leaseConnectionId = message.connectionId
  epoch : c.authorityEpoch = command.authorityEpoch

def RuntimeAct.isDispatch : RuntimeAct → Bool
  | .dispatch _ _ => true
  | _ => false

/-- The move calls `argus_cmd_router_dispatch` for the command. -/
def Dispatches (v : Move Runtime RuntimeEvent) (message : Message) (command : MqttCommand) : Prop :=
  v.ev.act.isDispatch = true ∧ ∃ env, v.pre.task = .authorized message command env

/-- A tick past the deadline, a disconnect of the bound connection, a new session. -/
def RuntimeAct.endsBinding (core : SessionCore) : RuntimeAct → Bool
  | .session ⟨nowMs, .tick⟩ => (core.tick nowMs).1
  | .session ⟨_, .disconnect connectionId⟩ => (core.disconnect connectionId).1
  | .prepareStart _ _ => true
  | _ => false

/-- Another task ends the binding of the command in flight. -/
def Disturbs (v : Move Runtime RuntimeEvent) : Prop :=
  v.pre.task.inFlight ≠ none ∧ v.ev.act.endsBinding v.pre.session.core = true

instance : DecidablePred Disturbs := fun _ => inferInstanceAs (Decidable (_ ∧ _))

theorem commandAdmissionCheck_current {c : SessionCore} {message : Message}
    {command : MqttCommand}
    (h : commandAdmissionCheck c message.principal.identifier message.connectionId command = .ok) :
    Current c message command := by
  obtain ⟨-, -, hholder, hconn, hepoch⟩ := commandAdmissionCheck_ok h
  refine ⟨?_, hholder, hconn, hepoch.symm⟩
  unfold commandAdmissionCheck at h
  split at h
  · cases h
  · next hsession => exact (not_not.mp hsession).symm

/-- An online link is bound to a connection. -/
def OnlineBound (c : SessionCore) : Prop := c.link = .online → c.leaseConnectionId ≠ 0

theorem arbitrate_bound {c : SessionCore} (h : OnlineBound c) (message : Message) (release : Bool)
    (ctx : AdmitContext) (req : AuthorityRequest) :
    OnlineBound (arbitrate c message release ctx req).2.2.2 := by
  simp only [arbitrate]
  split
  · split
    · exact h
    · dsimp only
      unfold releaseAuthority
      split
      · exact h
      · exact fun honline => by cases honline
  · split
    · exact h
    · rcases requestAuthorityWithState_cases c message.connectionId message.principal.identifier
        message.principal.clientType ctx.authorityProfile ctx.coreWindowOpen ctx.machineRunning
        req.authorityEpoch ctx.nowMs with ⟨hr, hconn, -⟩ | ⟨hr, hconn, -⟩ | ⟨d, -, -, hr⟩
      · rw [hr]
        exact fun _ => hconn
      · rw [hr]
        exact fun _ => hconn
      · rw [hr]
        exact h

theorem handle_bound {sha256 : Bytes → Option Digest} {s : Session} (h : OnlineBound s.core)
    (ev : SessionEvent) : OnlineBound (s.handle sha256 ev).2.core := by
  obtain ⟨now, act⟩ := ev
  cases act with
  | authority message release profile windowOpen running =>
    show OnlineBound (authorityAdmit sha256 s message release _).2.core
    rcases authorityAdmit_cases sha256 s message release ⟨profile, windowOpen, running, now⟩ with
      ⟨hsame, -⟩ | ⟨req, -, -, -, hcore, -⟩
    · rw [hsame]
      exact h
    · rw [hcore]
      exact arbitrate_bound h _ _ _ _
  | heartbeat message =>
    show OnlineBound (handleHeartbeat s.core message now).2
    unfold handleHeartbeat
    split
    · exact h
    · split
      · exact h
      · split
        · unfold acceptHeartbeat
          split
          · exact h
          · next hbad =>
            split
            · exact h
            · split
              · exact h
              · exact fun _ h0 => hbad (.inl h0)
        · exact h
  | command message action maxRpm routed =>
    show OnlineBound (handleCommand s.core message action maxRpm routed).2
    rcases handleCommand_core s.core message action maxRpm routed with hc | ⟨_, _, _, hc⟩
    · rw [hc]
      exact h
    · rw [hc]
      exact h
  | tick =>
    show OnlineBound (s.core.tick now).2
    unfold SessionCore.tick
    split
    · exact h
    · exact fun honline => by cases honline
  | disconnect conn =>
    show OnlineBound (s.core.disconnect conn).2
    unfold SessionCore.disconnect
    split
    · exact h
    · exact fun honline => by cases honline

/-- Commands in flight came on a connection. -/
structure BoundInv (w : Runtime) : Prop where
  online : OnlineBound w.session.core
  connection : ∀ message command, w.task.inFlight = some (message, command) →
    message.connectionId ≠ 0

theorem BoundInv.start (session : Bytes) : BoundInv (.start session) where
  online := fun h => by cases h
  connection := fun _ _ h => by cases h

theorem BoundInv.step {sha256 : Bytes → Option Digest} {w w' : Runtime} {ev : RuntimeEvent}
    (h : BoundInv w) (hs : runtimeStep sha256 w ev w') : BoundInv w' := by
  cases runtimeStep_move hs with
  | answer => exact h
  | admitted message action maxRpm ctx command _ _ haccept =>
    refine ⟨h.online, fun _ _ heq => ?_⟩
    cases heq
    obtain ⟨honline, -, -, hconn, -⟩ := commandAdmissionCheck_ok haccept
    rw [← hconn]
    exact h.online honline
  | forward _ task _ hflight => exact ⟨h.online, fun m c heq => h.connection m c (hflight ▸ heq)⟩
  | reject => exact ⟨h.online, fun _ _ heq => by cases heq⟩
  | dispatch => exact ⟨h.online, fun _ _ heq => by cases heq⟩
  | commit => exact ⟨h.online, fun _ _ heq => by cases heq⟩
  | session => exact ⟨handle_bound h.online _, h.connection⟩
  | prepareStart =>
    refine ⟨fun honline => ?_, h.connection⟩
    cases honline

/-! ## Dispatch under the admitted binding -/

/-- A command in flight whose binding has gone. -/
def Orphaned (w : Runtime) : Prop :=
  ∃ message command, w.task.inFlight = some (message, command) ∧
    ¬ Current w.session.core message command

/-- Only a disturbance orphans a command. -/
theorem orphaned_disturbs {sha256 : Bytes → Option Digest} {v : Move Runtime RuntimeEvent}
    (hs : runtimeStep sha256 v.pre v.ev v.post) (hpre : ¬ Orphaned v.pre) (hpost : Orphaned v.post) :
    Disturbs v := by
  obtain ⟨w, ev, w'⟩ := v
  have hmove : RuntimeMove sha256 w ev w' := runtimeStep_move hs
  obtain ⟨message, command, hflight, hlost⟩ := hpost
  cases hmove with
  | answer => exact absurd ⟨message, command, hflight, hlost⟩ hpre
  | admitted message' action maxRpm ctx command' _ _ haccept =>
    cases hflight
    exact absurd (commandAdmissionCheck_current haccept) hlost
  | forward _ task _ hsame =>
    exact absurd ⟨message, command, hsame.symm.trans hflight, hlost⟩ hpre
  | reject => cases hflight
  | dispatch => cases hflight
  | commit => cases hflight
  | session ev hallows =>
    have hin : w.task.inFlight ≠ none := by
      intro h
      rw [h] at hflight
      cases hflight
    refine ⟨hin, ?_⟩
    obtain ⟨now, act⟩ := ev
    cases act with
    | authority =>
      have hidle : w.task = .idle := of_decide_eq_true hallows
      rw [hidle] at hin
      exact absurd rfl hin
    | heartbeat =>
      have hidle : w.task = .idle := of_decide_eq_true hallows
      rw [hidle] at hin
      exact absurd rfl hin
    | command => cases hallows
    | tick =>
      rcases tick_cases w.session.core now with ⟨h, -⟩ | h
      · exact h
      · -- a tick before the deadline changes nothing
        have hsame : ((w.session.handle sha256 ⟨now, .tick⟩).2).core = w.session.core :=
          congrArg Prod.snd h
        rw [hsame] at hlost
        exact absurd ⟨message, command, hflight, hlost⟩ hpre
    | disconnect conn =>
      by_cases h : (w.session.core.disconnect conn).1 = true
      · exact h
      · have hsame : ((w.session.handle sha256 ⟨now, .disconnect conn⟩).2).core = w.session.core := by
          show (w.session.core.disconnect conn).2 = _
          unfold SessionCore.disconnect at h ⊢
          split
          · rfl
          · next hno =>
            rw [if_neg hno] at h
            exact absurd rfl h
        rw [hsame] at hlost
        exact absurd ⟨message, command, hflight, hlost⟩ hpre
  | prepareStart =>
    refine ⟨fun h => ?_, rfl⟩
    have : w.task.inFlight = some (message, command) := hflight
    rw [h] at this
    cases this

/-- No connection is bound, and the runtime task is with a command. -/
def Unbound (w : Runtime) : Prop := w.session.core.leaseConnectionId = 0 ∧ w.task ≠ .idle

theorem tick_unbound (c : SessionCore) (now : UInt64) :
    (c.tick now).1 = false ∧ (c.tick now).2 = c ∨
      (c.tick now).1 = true ∧ (c.tick now).2.leaseConnectionId = 0 := by
  unfold SessionCore.tick
  split
  · exact .inl ⟨rfl, rfl⟩
  · exact .inr ⟨rfl, rfl⟩

theorem disconnect_unbound (c : SessionCore) (conn : UInt64) :
    (c.disconnect conn).1 = false ∧ (c.disconnect conn).2 = c ∨
      (c.disconnect conn).1 = true ∧ (c.disconnect conn).2.leaseConnectionId = 0 := by
  unfold SessionCore.disconnect
  split
  · exact .inl ⟨rfl, rfl⟩
  · exact .inr ⟨rfl, rfl⟩

theorem CommandPhase.ne_idle_of_inFlight {task : CommandPhase} (h : task.inFlight ≠ none) :
    task ≠ .idle := by
  rintro rfl
  exact h rfl

theorem Disturbs.unbound {sha256 : Bytes → Option Digest} {v : Move Runtime RuntimeEvent}
    (hs : runtimeStep sha256 v.pre v.ev v.post) (h : Disturbs v) : Unbound v.post := by
  obtain ⟨w, ⟨act, published⟩, w'⟩ := v
  obtain ⟨hin, h⟩ := h
  have hbusy := CommandPhase.ne_idle_of_inFlight hin
  unfold runtimeStep Runtime.next at hs
  dsimp only at hs h hbusy
  cases act with
  | session ev =>
    obtain ⟨now, act⟩ := ev
    cases act with
    | tick =>
      cases hs
      rcases tick_unbound w.session.core now with ⟨hno, -⟩ | ⟨-, hzero⟩
      · exact absurd (hno.symm.trans h) (by decide)
      · exact ⟨hzero, hbusy⟩
    | disconnect conn =>
      cases hs
      rcases disconnect_unbound w.session.core conn with ⟨hno, -⟩ | ⟨-, hzero⟩
      · exact absurd (hno.symm.trans h) (by decide)
      · exact ⟨hzero, hbusy⟩
    | authority => cases h
    | heartbeat => cases h
    | command => cases h
  | prepareStart high low =>
    dsimp only at hs
    split at hs
    · cases hs
    · cases hs
      exact ⟨rfl, hbusy⟩
  | receive => cases h
  | snapshot => cases h
  | checkAuthority => cases h
  | dispatch => cases h
  | commit => cases h

/-- Until the task is idle again, no connection gets bound. -/
theorem Unbound.step {sha256 : Bytes → Option Digest} {w w' : Runtime} {ev : RuntimeEvent}
    (h : Unbound w) (hs : runtimeStep sha256 w ev w') (hbusy : w'.task ≠ .idle) : Unbound w' := by
  obtain ⟨hzero, hbusy₀⟩ := h
  cases runtimeStep_move hs with
  | answer _ _ _ _ _ hidle => exact absurd hidle hbusy₀
  | admitted _ _ _ _ _ hidle => exact absurd hidle hbusy₀
  | forward => exact ⟨hzero, hbusy⟩
  | reject => exact absurd rfl hbusy
  | dispatch => exact ⟨hzero, hbusy⟩
  | commit => exact absurd rfl hbusy
  | session ev hallows =>
    obtain ⟨now, act⟩ := ev
    cases act with
    | authority => exact absurd (of_decide_eq_true hallows) hbusy₀
    | heartbeat => exact absurd (of_decide_eq_true hallows) hbusy₀
    | command => cases hallows
    | tick =>
      refine ⟨?_, hbusy⟩
      show (w.session.core.tick now).2.leaseConnectionId = 0
      rcases tick_unbound w.session.core now with ⟨-, hsame⟩ | ⟨-, hzero'⟩
      · rw [hsame]
        exact hzero
      · exact hzero'
    | disconnect conn =>
      refine ⟨?_, hbusy⟩
      show (w.session.core.disconnect conn).2.leaseConnectionId = 0
      rcases disconnect_unbound w.session.core conn with ⟨-, hsame⟩ | ⟨-, hzero'⟩
      · rw [hsame]
        exact hzero
      · exact hzero'
  | prepareStart => exact ⟨rfl, hbusy⟩

theorem dispatch_current_iff (sha256 : Bytes → Option Digest) {session : Bytes}
    {ms : List (Move Runtime RuntimeEvent)}
    (h : IsRun (runtimeStep sha256) (Runtime.start session) ms) :
    (∀ v ∈ ms, ∀ message command, Dispatches v message command →
      Current v.pre.session.core message command) ↔
    ∀ l d mid e r, ms = l ++ d :: (mid ++ e :: r) → Disturbs d →
      (∃ message command, Dispatches e message command) → ∃ n ∈ mid, n.post.task = .idle := by
  constructor
  · rintro hcurrent l d mid e r rfl hd ⟨message, command, hdispatch⟩
    by_contra hno
    push Not at hno
    have hbound := (h.inv (I := BoundInv) (.start session) fun v hi hs => hi.step hs).1 e (by simp)
    rw [isRun_append, isRun_cons, isRun_append, isRun_cons] at h
    obtain ⟨-, -, hdstep, hmid, hepre, -⟩ := h
    -- from the disturbance to the dispatch no connection is bound
    have hunbound := (hmid.inv_of (I := Unbound) (K := fun n => n.post.task ≠ .idle)
      (hd.unbound hdstep) hno fun n hi hs hk => hi.step hs hk).2
    rw [← hepre] at hunbound
    obtain ⟨env, htask⟩ := hdispatch.2
    have hconn := (hcurrent e (by simp) message command hdispatch).connection
    refine hbound.1.connection message command ?_ (hconn.symm.trans hunbound.1)
    rw [htask]
    rfl
  · intro hcond e he message command hdispatch
    by_contra hlost
    obtain ⟨l, r, rfl, hl, hpre, -⟩ := h.split_of_mem he
    obtain ⟨env, htask⟩ := hdispatch.2
    have hstart : ¬ Orphaned (Runtime.start session) := by
      rintro ⟨_, _, hflight, -⟩
      cases hflight
    have horphan : Orphaned (final (Runtime.start session) l) := by
      rw [hpre]
      exact ⟨message, command, by rw [htask]; rfl, hlost⟩
    obtain ⟨l, d, mid, rfl, hdpre, hdpost, hmid⟩ := hl.exists_last_enter hstart horphan
    have hd : Disturbs d := orphaned_disturbs (hl.step_of_mem d (by simp)) hdpre hdpost
    obtain ⟨n, hn, hidle⟩ := hcond l d mid e r (by simp) hd ⟨message, command, hdispatch⟩
    obtain ⟨_, _, hflight, -⟩ := hmid n hn
    rw [hidle] at hflight
    cases hflight

/-- A start command of session `0123456789abcdef` under epoch 1. -/
def startPayload (sequence commandId : Bytes) : Bytes :=
  txt "\x7b\"session\":\"0123456789abcdef\",\"sequence\":" ++ sequence ++
    txt ",\"command_id\":\"" ++ commandId ++ txt "\",\"value\":true,\"authority_epoch\":1\x7d"

def panelContext : ResultContext := ⟨2, 5, .holding⟩

/-- Authority as IP acquisition grants it. -/
def supervisoryAuthority : AuthoritySnapshot := ⟨.supervisory, .mqtt, 2⟩

/-- The panel is granted the lease and its start command comes up to dispatch. -/
def panelStart : List RuntimeAct :=
  [.session panelGrant, .receive (panelMessage (startPayload (txt "1") (txt "c-1"))) .start 600000
      panelContext,
    .snapshot (some supervisoryAuthority) panelContext,
    .checkAuthority supervisoryAuthority panelContext]

/-- Ticks before the deadline while the command is in flight. -/
theorem dispatch_current_panel :
    let ms := runtimeTrace mbedtlsSha256 (.start (txt "0123456789abcdef")) (panelStart ++
      [.session ⟨2000, .tick⟩, .dispatch espOk panelContext, .session ⟨3000, .disconnect 2⟩, .commit])
    (∀ v ∈ ms, ∀ message command, Dispatches v message command →
      Current v.pre.session.core message command) ∧
    ∃ v ∈ ms, v.ev.act.isDispatch = true := by
  intro ms
  have hfacts : (∀ v ∈ ms, ¬ Disturbs v) ∧ ∃ v ∈ ms, v.ev.act.isDispatch = true := by
    decide +kernel
  obtain ⟨hcalm, hdispatch⟩ := hfacts
  refine ⟨(dispatch_current_iff mbedtlsSha256 (isRun_runtimeTrace _ _ _)).mpr ?_, hdispatch⟩
  intro l d mid e r hsplit hd
  exact absurd hd (hcalm d (by rw [show ms = _ from hsplit]; simp))

/-- The lease expires between the check of the authority and the dispatch: the tick sees
the deadline pass, and the departed panel's start reaches the router. -/
theorem expired_command_dispatched :
    ¬ ∀ session ms, IsRun (runtimeStep mbedtlsSha256) (Runtime.start session) ms →
      ∀ v ∈ ms, ∀ message command, Dispatches v message command →
        Current v.pre.session.core message command := by
  intro h
  let ms := runtimeTrace mbedtlsSha256 (.start (txt "0123456789abcdef"))
    (panelStart ++ [.session ⟨7000, .tick⟩, .dispatch espOk panelContext])
  have hall := h _ ms (isRun_runtimeTrace _ _ _)
  have hbad : ∃ v ∈ ms, v.ev.act.isDispatch = true ∧
      v.pre.session.core.leaseConnectionId = 0 ∧
      v.pre.task = .authorized (panelMessage (startPayload (txt "1") (txt "c-1")))
        ⟨txt "0123456789abcdef", 1, txt "c-1", 1, .start, 0, true⟩
        ⟨.mqttSupervisory, .start, 2, 0, true⟩ := by
    decide +kernel
  obtain ⟨v, hv, hact, hzero, htask⟩ := hbad
  have hconn := (hall v hv _ _ ⟨hact, _, htask⟩).connection
  rw [hzero] at hconn
  cases hconn

/-! ## The record of a session -/

def RuntimeAct.isPrepareStart : RuntimeAct → Bool
  | .prepareStart _ _ => true
  | _ => false

def Restarts (v : Move Runtime RuntimeEvent) : Prop := v.ev.act.isPrepareStart = true

instance : DecidablePred Restarts := fun _ => inferInstanceAs (Decidable (_ = true))

/-- The restarts that find the runtime task with a command. -/
def RestartsBusy (v : Move Runtime RuntimeEvent) : Prop := Restarts v ∧ v.pre.task ≠ .idle

instance : DecidablePred RestartsBusy := fun _ => inferInstanceAs (Decidable (_ ∧ _))

def AdmitsCommand (message : Message) (command : MqttCommand) (v : Move Runtime RuntimeEvent) : Prop :=
  v.pre.task = .idle ∧ v.post.task = .admitted message command

def Commits (message : Message) (command : MqttCommand) (result : Bytes)
    (v : Move Runtime RuntimeEvent) : Prop :=
  v.ev.act = .commit ∧ v.pre.task = .evaluated message command result

/-- The record of `c` is the one of this command. -/
structure RecordOf (c : SessionCore) (message : Message) (command : MqttCommand)
    (result : Bytes) : Prop where
  hasSequence : c.hasSequence = true
  lastSequence : c.lastSequence = command.sequence
  cachedAction : c.cachedAction = some command.action
  cachedCommandId : c.cachedCommandId = command.commandId
  cachedPayload : c.cachedPayload = message.payload
  cachedResult : c.cachedResult = result

/-- Blank, or of a command admitted and committed after the last restart of the run `l`. -/
structure RecordOwn (l : List (Move Runtime RuntimeEvent)) (c : SessionCore) : Prop where
  fresh : c.hasSequence = false → SameRecord (.init c.session) c
  own : c.hasSequence = true → ∃ message command result, RecordOf c message command result ∧
    command.session = c.session ∧ Since (AdmitsCommand message command) Restarts l ∧
      Since (Commits message command result) Restarts l

/-- The command the runtime task is with. -/
def CommandPhase.command : CommandPhase → Option (Message × MqttCommand)
  | .evaluated message command _ => some (message, command)
  | task => task.inFlight

theorem CommandPhase.command_of_inFlight {task : CommandPhase} (h : task.inFlight ≠ none) :
    task.command = task.inFlight := by
  cases task with
  | evaluated => exact absurd rfl h
  | idle => rfl
  | admitted => rfl
  | enveloped => rfl
  | authorized => rfl

theorem CommandPhase.ne_idle_of_command {task : CommandPhase} {message : Message}
    {command : MqttCommand} (h : task.command = some (message, command)) : task ≠ .idle := by
  rintro rfl
  cases h

/-- After the run `l`: the record is its session's own, and the command under way was
admitted in it, unless a restart has come in between. -/
structure RecordInv (l : List (Move Runtime RuntimeEvent)) (w : Runtime) : Prop where
  record : RecordOwn l w.session.core
  task : ∀ message command, w.task.command = some (message, command) →
    (Since (AdmitsCommand message command) Restarts l ∧ w.session.core.session = command.session) ∨
      Since RestartsBusy (fun n => n.post.task = .idle) l

theorem RecordOf.same {c d : SessionCore} {message : Message} {command : MqttCommand}
    {result : Bytes} (h : RecordOf c message command result) (hsame : SameRecord c d) :
    RecordOf d message command result :=
  ⟨hsame.hasSequence.trans h.hasSequence, hsame.lastSequence.trans h.lastSequence,
    hsame.cachedAction.trans h.cachedAction, hsame.cachedCommandId.trans h.cachedCommandId,
    hsame.cachedPayload.trans h.cachedPayload, hsame.cachedResult.trans h.cachedResult⟩

theorem RecordOwn.append {l : List (Move Runtime RuntimeEvent)} {c d : SessionCore}
    {v : Move Runtime RuntimeEvent} (h : RecordOwn l c) (hv : ¬ Restarts v)
    (hsession : d.session = c.session) (hsame : SameRecord c d) : RecordOwn (l ++ [v]) d := by
  constructor
  · intro hno
    rw [hsession]
    exact (h.fresh (hsame.hasSequence.symm.trans hno)).trans hsame
  · intro hyes
    obtain ⟨message, command, result, hrec, hname, haccept, hcommit⟩ :=
      h.own (hsame.hasSequence.symm.trans hyes)
    exact ⟨message, command, result, hrec.same hsame, hname.trans hsession.symm, haccept.append hv,
      hcommit.append hv⟩

/-- A command carried along by a step other than a restart. -/
theorem RecordInv.task_append {l : List (Move Runtime RuntimeEvent)} {v : Move Runtime RuntimeEvent}
    (h : RecordInv l v.pre) (hv : ¬ Restarts v)
    (hsession : v.post.session.core.session = v.pre.session.core.session) {message : Message}
    {command : MqttCommand} (hpre : v.pre.task.command = some (message, command))
    (hbusy : v.post.task ≠ .idle) :
    (Since (AdmitsCommand message command) Restarts (l ++ [v]) ∧
        v.post.session.core.session = command.session) ∨
      Since RestartsBusy (fun n => n.post.task = .idle) (l ++ [v]) := by
  rcases h.task message command hpre with ⟨haccept, hname⟩ | hbad
  · exact .inl ⟨haccept.append hv, hsession.trans hname⟩
  · exact .inr (hbad.append hbusy)

theorem not_restarts_of_check {v : Move Runtime RuntimeEvent} (h : v.ev.act.isCheck = true) :
    ¬ Restarts v := by
  intro hr
  unfold Restarts at hr
  cases hact : v.ev.act with
  | prepareStart =>
    rw [hact] at h
    cases h
  | _ =>
    rw [hact] at hr
    cases hr

theorem commitResult_of {message : Message} {command : MqttCommand} {result : Bytes}
    {maxRpmMilli : Nat}
    (hdecode : decodeCommand message.payload command.action maxRpmMilli = .ok command)
    (hresult : result.length < mqttBrokerPayloadCap) (c : SessionCore) :
    RecordOf (c.commitResult command message.payload result) message command result := by
  obtain ⟨-, hid, hlen⟩ := decodeCommand_spec hdecode
  refine ⟨rfl, rfl, rfl, ?_, ?_, ?_⟩
  · exact List.take_of_length_le hid
  · exact List.take_of_length_le (Nat.le_sub_one_of_lt hlen)
  · exact List.take_of_length_le (Nat.le_sub_one_of_lt hresult)

theorem RecordInv.step {sha256 : Bytes → Option Digest} {l : List (Move Runtime RuntimeEvent)}
    {v : Move Runtime RuntimeEvent} (h : RecordInv l v.pre) (hwf : v.pre.task.WellFormed)
    (hs : runtimeStep sha256 v.pre v.ev v.post)
    (hcommit : v.ev.act = .commit → ¬ Since RestartsBusy (fun n => n.post.task = .idle) l) :
    RecordInv (l ++ [v]) v.post := by
  obtain ⟨w, ev, w'⟩ := v
  have hmove : RuntimeMove sha256 w ev w' := runtimeStep_move hs
  cases hmove with
  | answer message action maxRpm ctx published hidle =>
    refine ⟨h.record.append Bool.false_ne_true rfl (.refl _), fun m c heq => ?_⟩
    exact absurd hidle (CommandPhase.ne_idle_of_command heq)
  | admitted message action maxRpm ctx command hidle _ haccept =>
    refine ⟨h.record.append Bool.false_ne_true rfl (.refl _), fun m c heq => ?_⟩
    cases heq
    exact .inl ⟨.now ⟨hidle, rfl⟩, (commandAdmissionCheck_current haccept).session⟩
  | forward ev task hcheck hflight hin =>
    have hv := not_restarts_of_check (v := ⟨w, ev, { w with task := task }⟩) hcheck
    refine ⟨h.record.append hv rfl (.refl _), fun m c heq => ?_⟩
    refine h.task_append hv rfl ?_ (CommandPhase.ne_idle_of_command heq)
    show w.task.command = some (m, c)
    rw [CommandPhase.command_of_inFlight hin, ← hflight, ← heq]
    exact (CommandPhase.command_of_inFlight (by rw [hflight]; exact hin)).symm
  | reject ev hcheck =>
    have hv := not_restarts_of_check (v := ⟨w, ev, { w with task := .idle }⟩) hcheck
    refine ⟨h.record.append hv rfl (.refl _), fun m c heq => ?_⟩
    cases heq
  | dispatch err ctx message command env result htask =>
    refine ⟨h.record.append Bool.false_ne_true rfl (.refl _), fun m c heq => ?_⟩
    refine h.task_append Bool.false_ne_true rfl ?_ (CommandPhase.ne_idle_of_command heq)
    show w.task.command = some (m, c)
    rw [htask]
    exact heq
  | commit message command result htask =>
    refine ⟨⟨fun hno => ?_, fun _ => ?_⟩, fun m c heq => ?_⟩
    · cases hno
    · rcases h.task message command (by rw [show w.task = _ from htask]; rfl) with
        ⟨haccept, hname⟩ | hbad
      · obtain ⟨hlen, maxRpm, hdecode⟩ := hwf.2 message command result htask
        exact ⟨message, command, result, commitResult_of hdecode hlen _, hname.symm,
          haccept.append Bool.false_ne_true, .now ⟨rfl, htask⟩⟩
      · exact absurd hbad (hcommit rfl)
    · cases heq
  | session ev hallows =>
    have hsession := handle_session sha256 w.session ev
    refine ⟨h.record.append Bool.false_ne_true hsession (handle_record sha256 _ hallows),
      fun m c heq => ?_⟩
    exact h.task_append Bool.false_ne_true hsession heq (CommandPhase.ne_idle_of_command heq)
  | prepareStart high low =>
    refine ⟨⟨fun _ => ?_, fun hyes => ?_⟩, fun m c heq => ?_⟩
    · exact ⟨rfl, rfl, rfl, rfl, rfl, rfl⟩
    · cases hyes
    · exact .inr (.now ⟨rfl, CommandPhase.ne_idle_of_command heq⟩)

theorem RecordInv.start (session : Bytes) : RecordInv [] (.start session) where
  record := ⟨fun _ => ⟨rfl, rfl, rfl, rfl, rfl, rfl⟩, fun h => by cases h⟩
  task := fun _ _ h => by cases h

/-- No commit comes with the task busy since a restart that found it busy. -/
def RestartsClear (ms : List (Move Runtime RuntimeEvent)) : Prop :=
  ∀ l p mid e r, ms = l ++ p :: (mid ++ e :: r) → RestartsBusy p → e.ev.act = .commit →
    ∃ n ∈ mid, n.post.task = .idle

theorem recordInv_run {sha256 : Bytes → Option Digest} {session : Bytes}
    {ms : List (Move Runtime RuntimeEvent)}
    (h : IsRun (runtimeStep sha256) (Runtime.start session) ms) (hclear : RestartsClear ms) :
    RecordInv ms (final (Runtime.start session) ms) := by
  have hcommit : ∀ l v r, ms = l ++ v :: r → v.ev.act = .commit →
      ¬ Since RestartsBusy (fun n => n.post.task = .idle) l := by
    rintro l v r rfl hact ⟨before, p, mid, rfl, hp, hmid⟩
    obtain ⟨n, hn, hidle⟩ := hclear before p mid v r (by simp) hp hact
    exact hmid n hn hidle
  have hboth := h.inv_past_of (I := fun w ms => w.task.WellFormed ∧ RecordInv ms w)
    ⟨CommandPhase.wellFormed_idle, .start session⟩ hcommit fun l v hinv hs hcommit => by
      obtain ⟨hwf, hrecord⟩ := hinv
      exact ⟨hwf.step hs, hrecord.step hwf hs hcommit⟩
  exact hboth.2

theorem commit_step {sha256 : Bytes → Option Digest} {w w' : Runtime} {ev : RuntimeEvent}
    (hs : runtimeStep sha256 w ev w') (hact : ev.act = .commit) :
    ∃ message command result, w.task = .evaluated message command result ∧
      w'.session.core.hasSequence = true := by
  cases runtimeStep_move hs with
  | commit message command result htask => exact ⟨message, command, result, htask, rfl⟩
  | forward _ _ hcheck =>
    rw [hact] at hcheck
    cases hcheck
  | reject _ hcheck =>
    rw [hact] at hcheck
    cases hcheck
  | _ => cases hact

theorem restart_task {sha256 : Bytes → Option Digest} {w w' : Runtime} {ev : RuntimeEvent}
    (hs : runtimeStep sha256 w ev w') (hact : ev.act.isPrepareStart = true) : w'.task = w.task := by
  cases runtimeStep_move hs with
  | prepareStart => rfl
  | forward task _ hcheck => exact absurd hact (not_restarts_of_check (v := ⟨w, ev, w⟩) hcheck)
  | reject _ hcheck => exact absurd hact (not_restarts_of_check (v := ⟨w, ev, w⟩) hcheck)
  | _ => cases hact

theorem record_own_iff (sha256 : Bytes → Option Digest) {session : Bytes}
    {ms : List (Move Runtime RuntimeEvent)}
    (h : IsRun (runtimeStep sha256) (Runtime.start session) ms) :
    (∀ l v r, ms = l ++ v :: r → RecordOwn (l ++ [v]) v.post.session.core) ↔
      RestartsClear ms := by
  constructor
  · rintro hown l p mid e r rfl ⟨hp, hbusy⟩ hact
    by_contra hno
    push Not at hno
    have hrecord := hown (l ++ p :: mid) e r (by simp)
    rw [isRun_append, isRun_cons, isRun_append, isRun_cons] at h
    obtain ⟨-, -, hpstep, hmid, -, hestep, -⟩ := h
    obtain ⟨message, command, result, htask, hyes⟩ := commit_step hestep hact
    obtain ⟨m, c, _, -, -, haccept, -⟩ := hrecord.own hyes
    -- the task was busy all along: the admission came before the restart
    rw [List.append_assoc] at haccept
    obtain ⟨a, ha, hidle, -⟩ := haccept.of_append ⟨p, by simp, hp⟩
    have hmidbusy := hmid.pre_of_post (P := fun w => w.task ≠ .idle)
      (by rw [restart_task hpstep hp]; exact hbusy) hno
    rcases List.mem_append.mp ha with ha | ha
    · rcases List.mem_cons.mp ha with rfl | ha
      · exact hbusy hidle
      · exact hmidbusy a ha hidle
    · rw [List.mem_singleton.mp ha, htask] at hidle
      cases hidle
  · rintro hclear l v r rfl
    rw [List.append_cons] at h hclear
    have hinv := (recordInv_run ((isRun_append _ _ _).mp h).1 fun l' p mid e r' heq =>
      hclear l' p mid e (r' ++ r) (by rw [heq]; simp)).record
    rwa [final_append] at hinv

/-- The panel's start is evaluated before the broker restarts. -/
theorem record_own_panel :
    let ms := runtimeTrace mbedtlsSha256 (.start (txt "0123456789abcdef"))
      (panelStart ++ [.dispatch espOk panelContext, .commit, .prepareStart 0 1])
    (∀ l v r, ms = l ++ v :: r → RecordOwn (l ++ [v]) v.post.session.core) ∧
      ∃ v ∈ ms, v.post.session.core.hasSequence = true := by
  intro ms
  have hfacts : (∀ v ∈ ms, ¬ RestartsBusy v) ∧
      ∃ v ∈ ms, v.post.session.core.hasSequence = true := by
    decide +kernel
  obtain ⟨hcalm, hsequence⟩ := hfacts
  refine ⟨(record_own_iff mbedtlsSha256 (isRun_runtimeTrace _ _ _)).mpr ?_, hsequence⟩
  intro l p mid e r hsplit hp
  exact absurd hp (hcalm p (by rw [show ms = _ from hsplit]; simp))

/-- The broker restarts between the dispatch and the commit: the command of the session
before is the first of the new one. -/
theorem record_of_old_session :
    ¬ ∀ session ms, IsRun (runtimeStep mbedtlsSha256) (Runtime.start session) ms →
      ∀ l v r, ms = l ++ v :: r → RecordOwn (l ++ [v]) v.post.session.core := by
  intro h
  let ms := runtimeTrace mbedtlsSha256 (.start (txt "0123456789abcdef"))
    (panelStart ++ [.dispatch espOk panelContext, .prepareStart 0 1, .commit])
  have hfacts : ms.getLast?.map (fun v => v.post.session.core.hasSequence) = some true ∧
      (∃ v ∈ ms.drop 5, Restarts v) ∧ ∀ v ∈ ms.drop 5, v.pre.task ≠ .idle := by
    decide +kernel
  obtain ⟨hlast, hrestart, hbusy⟩ := hfacts
  obtain ⟨v, hv, hyes⟩ := Option.map_eq_some_iff.mp hlast
  obtain ⟨l, hl⟩ := List.getLast?_eq_some_iff.mp hv
  have hown := h _ ms (isRun_runtimeTrace _ _ _) l v [] hl
  obtain ⟨message, command, _, -, -, haccept, -⟩ := hown.own hyes
  rw [← hl] at haccept
  rw [← List.take_append_drop 5 ms] at haccept
  obtain ⟨a, ha, hidle, -⟩ := haccept.of_append hrestart
  exact hbusy a ha hidle

end Argus
