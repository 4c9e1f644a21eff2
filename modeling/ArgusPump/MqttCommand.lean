import ArgusPump.MqttDeadline
import ArgusPump.CmdRouter

/-!
# A command from admission to commit

`handle_command` of `main/argus_mqtt_runtime.c` cut where it gives up the session mutex:
admission and sequence check, the authority snapshot, the authority check, dispatch,
commit.  Other tasks run the expiry tick, the disconnect callback and
`argus_mqtt_runtime_prepare_start` in between.

    uncut, the pieces are `handleCommand`                             (handleCommand_receive)
    the sequence record changes in the commit only                    (runtimeStep_record)

The answers of the state manager and the values `build_result` reads from other modules
are part of the events.  Left out: log output, the operational snapshot and the state
topics published with it.
-/

namespace Argus

open Interact SessionCore

/-! ## Results -/

def mqttActionName : MqttAction → Bytes
  | .setTarget => txt "set_target_rpm_milli"
  | .start => txt "start"
  | .stop => txt "stop"
  | .unlock => txt "unlock"
  | .eStop => txt "e_stop"
  | .resetEStop => txt "reset_e_stop"
  | .recover => txt "recover"

def stateName : MachineState → Bytes
  | .booting => txt "BOOTING"
  | .unlocked => txt "UNLOCKED"
  | .starting => txt "STARTING"
  | .running => txt "RUNNING"
  | .decelerating => txt "DECELERATING"
  | .holding => txt "HOLDING"
  | .emergencyStopped => txt "EMERGENCY_STOPPED"
  | .recovering => txt "RECOVERING"
  | .faulted => txt "FAULTED"

/-- What `build_result` reads of the authority and the machine. -/
structure ResultContext where
  authorityGeneration : UInt32
  commandGeneration : UInt32
  machineState : MachineState
deriving DecidableEq

def buildResult (ctx : ResultContext) (command : MqttCommand) (outcome reason : Bytes) : Bytes :=
  let out := txt "\x7b\"session\":\"" ++ command.session ++ txt "\",\"sequence\":" ++
    txt (toString command.sequence.toNat) ++ txt ",\"command_id\":\"" ++ command.commandId ++
    txt "\",\"action\":\"" ++ mqttActionName command.action ++ txt "\",\"outcome\":\"" ++ outcome ++
    txt "\",\"reason\":\"" ++ reason ++ txt "\",\"authority_generation\":" ++
    txt (toString ctx.authorityGeneration.toNat) ++ txt ",\"command_generation\":" ++
    txt (toString ctx.commandGeneration.toNat) ++ txt ",\"machine_state\":\"" ++
    stateName ctx.machineState ++ txt "\"\x7d"
  if out.length ≥ mqttBrokerPayloadCap then
    txt "\x7b\"outcome\":\"REJECTED\",\"reason\":\"result_overflow\"\x7d"
  else out

/-- A result fits the buffer it is cached in. -/
theorem buildResult_length (ctx : ResultContext) (command : MqttCommand) (outcome reason : Bytes) :
    (buildResult ctx command outcome reason).length < mqttBrokerPayloadCap := by
  unfold buildResult
  dsimp only
  split
  · decide
  · next hlen => exact Nat.lt_of_not_le hlen

/-- The document `reject_decoded` publishes. -/
def rejectDecoded (ctx : ResultContext) (command : MqttCommand) (reason : Bytes) : Bytes :=
  buildResult ctx command (txt "REJECTED") reason

def commandType : MqttAction → CmdType
  | .setTarget => .setTarget
  | .start => .start
  | .stop => .stopNormal
  | .unlock => .unlock
  | .eStop => .estop
  | .resetEStop => .resetEstop
  | .recover => .recover

def commandEnvelope (command : MqttCommand) (authority : AuthoritySnapshot) : CommandEnvelope where
  source := .mqttSupervisory
  commandType := commandType command.action
  authorityGeneration := authority.generation
  targetRpmMilli := command.targetRpmMilli.toInt32
  forward := command.forward

/-! ## The runtime task and the others -/

/-- Where the runtime task is. -/
inductive CommandPhase
  | idle
  /-- Admitted and of a new sequence, the mutex given back. -/
  | admitted (message : Message) (command : MqttCommand)
  | enveloped (message : Message) (command : MqttCommand) (env : CommandEnvelope)
  /-- The authority check has passed; `argus_cmd_router_dispatch` comes next. -/
  | authorized (message : Message) (command : MqttCommand) (env : CommandEnvelope)
  | evaluated (message : Message) (command : MqttCommand) (result : Bytes)
deriving DecidableEq

/-- The command between its admission and the return of its dispatch. -/
def CommandPhase.inFlight : CommandPhase → Option (Message × MqttCommand)
  | .idle | .evaluated _ _ _ => none
  | .admitted message command | .enveloped message command _
  | .authorized message command _ => some (message, command)

/-- `s_runtime.session` with the duplicate cache, and the runtime task. -/
structure Runtime where
  session : Session
  task : CommandPhase

def Runtime.start (session : Bytes) : Runtime := ⟨.start session, .idle⟩

/-- `handle_command` up to where it gives the mutex back: what it publishes, and where the
task goes. -/
def receiveCommand (core : SessionCore) (message : Message) (action : MqttAction)
    (maxRpmMilli : Nat) (ctx : ResultContext) : Option Bytes × CommandPhase :=
  match decodeCommand message.payload action maxRpmMilli with
  | .error _ => (none, .idle)
  | .ok command =>
    if ¬ message.policyAdmitted then
      (some (rejectDecoded ctx command
        (if message.retain then txt "retained_forbidden" else txt "topic_forbidden")), .idle)
    else if message.qos ≠ 1 then (some (rejectDecoded ctx command (txt "qos_1_required")), .idle)
    else
      match commandAdmissionCheck core message.principal.identifier message.connectionId command with
      | .sessionMismatch => (some (rejectDecoded ctx command (txt "session_mismatch")), .idle)
      | .notHolder => (some (rejectDecoded ctx command (txt "not_authority_holder")), .idle)
      | .staleEpoch => (some (rejectDecoded ctx command (txt "stale_epoch")), .idle)
      | .ok =>
        match core.checkSequence command message.payload with
        | .duplicate => (some core.cachedResult, .idle)
        | .conflict => (some (rejectDecoded ctx command (txt "sequence_conflict")), .idle)
        | .stale => (some (rejectDecoded ctx command (txt "stale_sequence")), .idle)
        | .first | .newer => (none, .admitted message command)

inductive RuntimeAct
  /-- The runtime task takes a command message. -/
  | receive (message : Message) (action : MqttAction) (maxRpmMilli : Nat) (ctx : ResultContext)
  /-- `argus_authority_mgr_get_snapshot`, `none` where it fails. -/
  | snapshot (authority : Option AuthoritySnapshot) (ctx : ResultContext)
  | checkAuthority (authority : AuthoritySnapshot) (ctx : ResultContext)
  | dispatch (err : EspErr) (ctx : ResultContext)
  | commit
  /-- Another message on the runtime task, or a tick or a disconnect on another task. -/
  | session (ev : SessionEvent)
  /-- `argus_mqtt_runtime_prepare_start`, with the random words it drew. -/
  | prepareStart (randomHigh randomLow : UInt32)

/-- A step and the document it publishes on the command result topic. -/
structure RuntimeEvent where
  act : RuntimeAct
  published : Option Bytes

/-- Messages other than commands are taken by the idle runtime task; ticks and disconnects
come from other tasks at any time. -/
def CommandPhase.allows (task : CommandPhase) : SessionAct → Bool
  | .authority .. | .heartbeat _ => task = .idle
  | .command .. => false
  | .tick | .disconnect _ => true

namespace Runtime

/-- One step, with what it publishes; `none` where the task is elsewhere in its code. -/
def next (sha256 : Bytes → Option Digest) (w : Runtime) (act : RuntimeAct) :
    Option (Option Bytes × Runtime) :=
  match act, w.task with
  | .receive message action maxRpmMilli ctx, .idle =>
    let r := receiveCommand w.session.core message action maxRpmMilli ctx
    some (r.1, { w with task := r.2 })
  | .snapshot none ctx, .admitted _ command =>
    some (some (rejectDecoded ctx command (txt "authority_unavailable")), { w with task := .idle })
  | .snapshot (some authority) _, .admitted message command =>
    some (none, { w with task := .enveloped message command (commandEnvelope command authority) })
  | .checkAuthority authority ctx, .enveloped message command env =>
    if cmdRouterCheckAuthority env authority ≠ espOk then
      some (some (rejectDecoded ctx command (txt "authority_rejected")), { w with task := .idle })
    else some (none, { w with task := .authorized message command env })
  | .dispatch err ctx, .authorized message command _ =>
    let result :=
      if err = espOk then buildResult ctx command (txt "ACCEPTED") (txt "accepted")
      else buildResult ctx command (txt "REJECTED") (txt "state_rejected")
    some (none, { w with task := .evaluated message command result })
  | .commit, .evaluated message command result =>
    some (some result,
      ⟨{ w.session with core := w.session.core.commitResult command message.payload result }, .idle⟩)
  | .session ev, task =>
    if task.allows ev.act then some (none, { w with session := (w.session.handle sha256 ev).2 })
    else none
  | .prepareStart randomHigh randomLow, _ =>
    -- the words are drawn until one is not 0
    if randomHigh = 0 ∧ randomLow = 0 then none
    else some (none, { w with session := .start (sessionFormat randomHigh randomLow) })
  | _, _ => none

end Runtime

def runtimeStep (sha256 : Bytes → Option Digest) (w : Runtime) (ev : RuntimeEvent) (w' : Runtime) :
    Prop :=
  w.next sha256 ev.act = some (ev.published, w')

/-- The moves on a list of acts, up to the first that has to wait. -/
def runtimeTrace (sha256 : Bytes → Option Digest) :
    Runtime → List RuntimeAct → List (Move Runtime RuntimeEvent) :=
  traceWhile fun w act => (w.next sha256 act).map fun r => (⟨act, r.1⟩, r.2)

theorem isRun_runtimeTrace (sha256 : Bytes → Option Digest) (w : Runtime) (acts : List RuntimeAct) :
    IsRun (runtimeStep sha256) w (runtimeTrace sha256 w acts) := by
  refine isRun_traceWhile (fun w act ev w' h => ?_) w acts
  obtain ⟨⟨published, t⟩, hnext, heq⟩ := Option.map_eq_some_iff.mp h
  cases heq
  exact hnext

/-! ## What a step can do -/

/-- Received: dropped, answered at once, or admitted. -/
theorem receiveCommand_cases (core : SessionCore) (message : Message) (action : MqttAction)
    (maxRpmMilli : Nat) (ctx : ResultContext) :
    (∃ published, receiveCommand core message action maxRpmMilli ctx = (published, .idle)) ∨
    ∃ command, decodeCommand message.payload action maxRpmMilli = .ok command ∧
      commandAdmissionCheck core message.principal.identifier message.connectionId command = .ok ∧
      (core.hasSequence = false ∨ sessionIsNewer command.sequence core.lastSequence = true) ∧
      receiveCommand core message action maxRpmMilli ctx = (none, .admitted message command) := by
  unfold receiveCommand
  split
  · exact .inl ⟨_, rfl⟩
  · next command hdecode =>
    split
    · exact .inl ⟨_, rfl⟩
    · split
      · exact .inl ⟨_, rfl⟩
      · split
        · exact .inl ⟨_, rfl⟩
        · exact .inl ⟨_, rfl⟩
        · exact .inl ⟨_, rfl⟩
        · next hok =>
          split
          · exact .inl ⟨_, rfl⟩
          · exact .inl ⟨_, rfl⟩
          · exact .inl ⟨_, rfl⟩
          · next hfirst =>
            refine .inr ⟨command, hdecode, hok, .inl ?_, rfl⟩
            unfold checkSequence at hfirst
            split at hfirst
            · next h => exact Bool.eq_false_iff.mpr h
            · split_ifs at hfirst
          · next hnewer =>
            refine .inr ⟨command, hdecode, hok, .inr ?_, rfl⟩
            unfold checkSequence at hnewer
            split at hnewer
            · cases hnewer
            · split_ifs at hnewer with _ _ h
              exact h

/-- The commands of a phase decode from their messages, with results that fit. -/
def CommandPhase.WellFormed (task : CommandPhase) : Prop :=
  (∀ message command, task.inFlight = some (message, command) →
    ∃ maxRpmMilli, decodeCommand message.payload command.action maxRpmMilli = .ok command) ∧
  ∀ message command result, task = .evaluated message command result →
    result.length < mqttBrokerPayloadCap ∧
      ∃ maxRpmMilli, decodeCommand message.payload command.action maxRpmMilli = .ok command

/-- The runtime task looks at the authority. -/
def RuntimeAct.isCheck : RuntimeAct → Bool
  | .snapshot _ _ | .checkAuthority _ _ => true
  | _ => false

/-- The steps by what they do to the session and the task. -/
inductive RuntimeMove (sha256 : Bytes → Option Digest) (w : Runtime) : RuntimeEvent → Runtime → Prop
  | answer (message : Message) (action : MqttAction) (maxRpmMilli : Nat) (ctx : ResultContext)
      (published : Option Bytes) (hidle : w.task = .idle)
      (h : receiveCommand w.session.core message action maxRpmMilli ctx = (published, .idle)) :
      RuntimeMove sha256 w ⟨.receive message action maxRpmMilli ctx, published⟩ w
  | admitted (message : Message) (action : MqttAction) (maxRpmMilli : Nat) (ctx : ResultContext)
      (command : MqttCommand) (hidle : w.task = .idle)
      (hdecode : decodeCommand message.payload action maxRpmMilli = .ok command)
      (haccept : commandAdmissionCheck w.session.core message.principal.identifier
        message.connectionId command = .ok)
      (hsequence : w.session.core.hasSequence = false ∨
        sessionIsNewer command.sequence w.session.core.lastSequence = true) :
      RuntimeMove sha256 w ⟨.receive message action maxRpmMilli ctx, none⟩
        { w with task := .admitted message command }
  | forward (ev : RuntimeEvent) (task : CommandPhase) (hcheck : ev.act.isCheck = true)
      (hflight : task.inFlight = w.task.inFlight) (hin : w.task.inFlight ≠ none) :
      RuntimeMove sha256 w ev { w with task := task }
  | reject (ev : RuntimeEvent) (hcheck : ev.act.isCheck = true) (hin : w.task.inFlight ≠ none) :
      RuntimeMove sha256 w ev { w with task := .idle }
  | dispatch (err : EspErr) (ctx : ResultContext) (message : Message) (command : MqttCommand)
      (env : CommandEnvelope) (result : Bytes) (htask : w.task = .authorized message command env)
      (hresult : result.length < mqttBrokerPayloadCap) :
      RuntimeMove sha256 w ⟨.dispatch err ctx, none⟩
        { w with task := .evaluated message command result }
  | commit (message : Message) (command : MqttCommand) (result : Bytes)
      (htask : w.task = .evaluated message command result) :
      RuntimeMove sha256 w ⟨.commit, some result⟩
        ⟨{ w.session with core := w.session.core.commitResult command message.payload result },
          .idle⟩
  | session (ev : SessionEvent) (hallows : w.task.allows ev.act = true) :
      RuntimeMove sha256 w ⟨.session ev, none⟩
        { w with session := (w.session.handle sha256 ev).2 }
  | prepareStart (randomHigh randomLow : UInt32) :
      RuntimeMove sha256 w ⟨.prepareStart randomHigh randomLow, none⟩
        { w with session := .start (sessionFormat randomHigh randomLow) }

theorem runtimeStep_move {sha256 : Bytes → Option Digest} {w w' : Runtime} {ev : RuntimeEvent}
    (h : runtimeStep sha256 w ev w') : RuntimeMove sha256 w ev w' := by
  obtain ⟨act, published⟩ := ev
  unfold runtimeStep Runtime.next at h
  dsimp only at h
  split at h
  · next message action maxRpm ctx hidle =>
    rcases receiveCommand_cases w.session.core message action maxRpm ctx with
      ⟨doc, hr⟩ | ⟨command, hdecode, haccept, hsequence, hr⟩
    · rw [hr] at h
      cases h
      have hsame : { w with task := CommandPhase.idle } = w := by rw [← hidle]
      rw [hsame]
      exact .answer message action maxRpm ctx _ hidle hr
    · rw [hr] at h
      cases h
      exact .admitted message action maxRpm ctx command hidle hdecode haccept hsequence
  · next hadmitted =>
    cases h
    exact .reject _ rfl (by rw [hadmitted]; simp [CommandPhase.inFlight])
  · next hadmitted =>
    cases h
    exact .forward _ _ rfl (by rw [hadmitted]; rfl)
      (by rw [hadmitted]; simp [CommandPhase.inFlight])
  · next henveloped =>
    split at h
    · cases h
      exact .reject _ rfl (by rw [henveloped]; simp [CommandPhase.inFlight])
    · cases h
      exact .forward _ _ rfl (by rw [henveloped]; rfl)
        (by rw [henveloped]; simp [CommandPhase.inFlight])
  · next hauthorized =>
    cases h
    refine .dispatch _ _ _ _ _ _ hauthorized ?_
    split
    · exact buildResult_length _ _ _ _
    · exact buildResult_length _ _ _ _
  · next hevaluated =>
    cases h
    exact .commit _ _ _ hevaluated
  · split at h
    · next hallows =>
      cases h
      exact .session _ hallows
    · cases h
  · split at h
    · cases h
    · cases h
      exact .prepareStart _ _
  · cases h

theorem CommandPhase.wellFormed_idle : CommandPhase.WellFormed .idle := by
  refine ⟨fun _ _ h => ?_, fun _ _ _ h => ?_⟩
  · cases h
  · cases h

theorem CommandPhase.WellFormed.step {sha256 : Bytes → Option Digest} {w w' : Runtime}
    {ev : RuntimeEvent} (h : w.task.WellFormed) (hs : runtimeStep sha256 w ev w') :
    w'.task.WellFormed := by
  cases runtimeStep_move hs with
  | answer => exact h
  | admitted message action maxRpm ctx command _ hdecode =>
    refine ⟨fun _ _ heq => ?_, fun _ _ _ heq => ?_⟩
    · cases heq
      rw [(decodeCommand_spec hdecode).1]
      exact ⟨maxRpm, hdecode⟩
    · cases heq
  | forward _ task _ hflight hin =>
    refine ⟨fun message command heq => h.1 message command (hflight ▸ heq), ?_⟩
    rintro _ _ _ rfl
    exact absurd hflight.symm hin
  | reject => exact wellFormed_idle
  | dispatch err ctx message command env result htask hresult =>
    refine ⟨fun _ _ heq => ?_, fun _ _ _ heq => ?_⟩
    · cases heq
    · cases heq
      exact ⟨hresult, h.1 message command (by rw [htask]; rfl)⟩
  | commit => exact wellFormed_idle
  | session => exact h
  | prepareStart => exact h

/-- **Uncut, the pieces are `handleCommand`**: an answer at once leaves the core alone; an
admitted command is rejected by the router, or committed with its result. -/
theorem handleCommand_receive (core : SessionCore) (message : Message) (action : MqttAction)
    (maxRpmMilli : Nat) (ctx : ResultContext) :
    ((receiveCommand core message action maxRpmMilli ctx).2 = .idle ∧
      ∀ routed, (handleCommand core message action maxRpmMilli routed).2 = core) ∨
    ∃ command, (receiveCommand core message action maxRpmMilli ctx).2 = .admitted message command ∧
      (∀ reason, handleCommand core message action maxRpmMilli (.error reason) =
        (.rejected reason, core)) ∧
      ∀ result, handleCommand core message action maxRpmMilli (.ok result) =
        (.committed, core.commitResult command message.payload result) := by
  unfold receiveCommand handleCommand
  cases decodeCommand message.payload action maxRpmMilli with
  | error e => exact .inl ⟨rfl, fun _ => rfl⟩
  | ok command =>
    dsimp only
    by_cases hpolicy : ¬ message.policyAdmitted
    · simp only [if_pos hpolicy]
      exact .inl ⟨trivial, fun _ => trivial⟩
    · simp only [if_neg hpolicy]
      by_cases hqos : message.qos ≠ 1
      · simp only [if_pos hqos]
        exact .inl ⟨trivial, fun _ => trivial⟩
      · simp only [if_neg hqos]
        cases commandAdmissionCheck core message.principal.identifier message.connectionId
          command with
        | sessionMismatch => exact .inl ⟨rfl, fun _ => rfl⟩
        | notHolder => exact .inl ⟨rfl, fun _ => rfl⟩
        | staleEpoch => exact .inl ⟨rfl, fun _ => rfl⟩
        | ok =>
          cases core.checkSequence command message.payload with
          | duplicate => exact .inl ⟨rfl, fun _ => rfl⟩
          | conflict => exact .inl ⟨rfl, fun _ => rfl⟩
          | stale => exact .inl ⟨rfl, fun _ => rfl⟩
          | first => exact .inr ⟨command, rfl, fun _ => rfl, fun _ => rfl⟩
          | newer => exact .inr ⟨command, rfl, fun _ => rfl, fun _ => rfl⟩

/-! ## The sequence record -/

/-- The sequence, action, id, payload and result kept of the last evaluated command. -/
structure SameRecord (c d : SessionCore) : Prop where
  hasSequence : d.hasSequence = c.hasSequence
  lastSequence : d.lastSequence = c.lastSequence
  cachedAction : d.cachedAction = c.cachedAction
  cachedCommandId : d.cachedCommandId = c.cachedCommandId
  cachedPayload : d.cachedPayload = c.cachedPayload
  cachedResult : d.cachedResult = c.cachedResult

theorem SameRecord.refl (c : SessionCore) : SameRecord c c := ⟨rfl, rfl, rfl, rfl, rfl, rfl⟩

theorem SameRecord.trans {c d e : SessionCore} (h : SameRecord c d) (h' : SameRecord d e) :
    SameRecord c e :=
  ⟨h'.hasSequence.trans h.hasSequence, h'.lastSequence.trans h.lastSequence,
    h'.cachedAction.trans h.cachedAction, h'.cachedCommandId.trans h.cachedCommandId,
    h'.cachedPayload.trans h.cachedPayload, h'.cachedResult.trans h.cachedResult⟩

theorem SameRecord.leaseRecordHolder (c : SessionCore) (i : Identifier) (t : UInt8) :
    SameRecord c (c.leaseRecordHolder i t) := by
  unfold SessionCore.leaseRecordHolder
  split
  · exact ⟨rfl, rfl, rfl, rfl, rfl, rfl⟩
  · exact ⟨rfl, rfl, rfl, rfl, rfl, rfl⟩

theorem SameRecord.grant (c : SessionCore) (conn : UInt64) (i : Identifier) (t : UInt8)
    (now : UInt64) : SameRecord c (c.grant conn i t now) := by
  obtain ⟨h₁, h₂, h₃, h₄, h₅, h₆⟩ := SameRecord.leaseRecordHolder c i t
  exact ⟨h₁, h₂, h₃, h₄, h₅, h₆⟩

theorem arbitrate_record (c : SessionCore) (message : Message) (release : Bool)
    (ctx : AdmitContext) (req : AuthorityRequest) :
    SameRecord c (arbitrate c message release ctx req).2.2.2 := by
  simp only [arbitrate]
  split
  · split
    · exact .refl c
    · dsimp only
      unfold releaseAuthority
      split
      · exact .refl c
      · obtain ⟨h₁, h₂, h₃, h₄, h₅, h₆⟩ := SameRecord.leaseRecordHolder c .empty 0
        exact ⟨h₁, h₂, h₃, h₄, h₅, h₆⟩
  · split
    · exact .refl c
    · rcases requestAuthorityWithState_cases c message.connectionId message.principal.identifier
        message.principal.clientType ctx.authorityProfile ctx.coreWindowOpen ctx.machineRunning
        req.authorityEpoch ctx.nowMs with ⟨h, -⟩ | ⟨h, -⟩ | ⟨d, -, -, h⟩
      · rw [h]
        exact .grant _ _ _ _ _
      · rw [h]
        exact ⟨rfl, rfl, rfl, rfl, rfl, rfl⟩
      · rw [h]
        exact .refl c

theorem handleHeartbeat_record (c : SessionCore) (message : Message) (now : UInt64) :
    SameRecord c (handleHeartbeat c message now).2 := by
  unfold handleHeartbeat
  split
  · exact .refl c
  · split
    · exact .refl c
    · split
      · unfold acceptHeartbeat
        split_ifs
        · exact .refl c
        · exact .refl c
        · exact .refl c
        · obtain ⟨h₁, h₂, h₃, h₄, h₅, h₆⟩ := SameRecord.leaseRecordHolder c
            message.principal.identifier message.principal.clientType
          exact ⟨h₁, h₂, h₃, h₄, h₅, h₆⟩
      · exact .refl c

/-- Requests, releases, heartbeats, ticks and disconnects leave the record alone. -/
theorem handle_record (sha256 : Bytes → Option Digest) (s : Session) {task : CommandPhase}
    {ev : SessionEvent} (hallows : task.allows ev.act = true) :
    SameRecord s.core (s.handle sha256 ev).2.core := by
  obtain ⟨now, act⟩ := ev
  cases act with
  | authority message release profile windowOpen running =>
    show SameRecord s.core (authorityAdmit sha256 s message release _).2.core
    rcases authorityAdmit_cases sha256 s message release ⟨profile, windowOpen, running, now⟩ with
      ⟨hsame, -⟩ | ⟨req, -, -, -, hcore, -⟩
    · rw [hsame]
      exact .refl _
    · rw [hcore]
      exact arbitrate_record _ _ _ _ _
  | heartbeat message => exact handleHeartbeat_record _ _ _
  | command => cases hallows
  | tick =>
    show SameRecord s.core (s.core.tick now).2
    unfold SessionCore.tick
    split
    · exact .refl _
    · obtain ⟨h₁, h₂, h₃, h₄, h₅, h₆⟩ := SameRecord.leaseRecordHolder
        { s.core with link := .stale, leaseConnectionId := 0 } .empty 0
      exact ⟨h₁, h₂, h₃, h₄, h₅, h₆⟩
  | disconnect conn =>
    show SameRecord s.core (s.core.disconnect conn).2
    unfold SessionCore.disconnect
    split
    · exact .refl _
    · exact ⟨rfl, rfl, rfl, rfl, rfl, rfl⟩

/-- **One step** of one session: the record changes in the commit only. -/
theorem runtimeStep_record {sha256 : Bytes → Option Digest} {w w' : Runtime} {ev : RuntimeEvent}
    (hs : runtimeStep sha256 w ev w') (hcommit : ev.act ≠ .commit)
    (hstart : ∀ high low, ev.act ≠ .prepareStart high low) :
    SameRecord w.session.core w'.session.core := by
  cases runtimeStep_move hs with
  | answer => exact .refl _
  | admitted => exact .refl _
  | forward => exact .refl _
  | reject => exact .refl _
  | dispatch => exact .refl _
  | commit => exact absurd rfl hcommit
  | session ev hallows => exact handle_record sha256 _ hallows
  | prepareStart high low => exact absurd rfl (hstart high low)

end Argus
