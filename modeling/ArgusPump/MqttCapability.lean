import ArgusPump.MqttGate
import ArgusPump.MqttSubscriptions
import ArgusPump.MqttRuns
import ArgusPump.BrokerPools

/-!
# The capability gate

What a PUBLISH has passed when its message reaches the runtime, over every order of the
client tasks, the directory's commits and the runtime's restarts.  The evidence is in the
transcript of the packet's program, and every answer in it was true when it was given.

    the program hands over a message → its checks answered yes       (servePublish_spec)
    in the queue, or taken → vetted                                   (GateInv.step)
    dispatched, or the session core changed → allowed                 (capability_gate)
-/

namespace Argus

open Interact Prog

/-! ## The program of a packet -/

abbrev GateLog := List (Σ q : GateCall, q.Answer)

/-- The transcript shows what a message needs before it is handed over. -/
structure Evidence (publish : PublishPacket) (info : ClientInfo) (m : BrokerMessage)
    (log : GateLog) : Prop where
  composed : ∃ admitted, m = { composeMessage publish info with policyAdmitted := admitted }
  admitted : ⟨.infoIfAdmitted, (some info : Option ClientInfo)⟩ ∈ log
  revalidated : ⟨.revalidate info, true⟩ ∈ log
  authorized : ⟨.publishAuthorize (composeMessage publish info), true⟩ ∈ log
  policy : m.policyAdmitted = true → ⟨.policyCheck m, true⟩ ∈ log

theorem Evidence.mono {publish : PublishPacket} {info : ClientInfo} {m : BrokerMessage}
    {log log' : GateLog} (h : Evidence publish info m log) (hle : log <+: log') :
    Evidence publish info m log' where
  composed := h.composed
  admitted := hle.subset h.admitted
  revalidated := hle.subset h.revalidated
  authorized := hle.subset h.authorized
  policy hp := hle.subset (h.policy hp)

def GateCall.NoCallback (q : GateCall) : Prop := ∀ m, q ≠ .onMessage m

theorem recheck_spec {α : Type} {I : GateCall → GateLog → Prop} {post : α → GateLog → Prop}
    {connectionId : UInt64} {fail : α} {k : ClientInfo → GateProg α} {log : GateLog}
    (hI : I .infoIfAdmitted log) (hfail : ∀ log', post fail log')
    (hk : ∀ info, (k info).wpS Logs I post (log ++ [⟨.infoIfAdmitted, some info⟩])) :
    (recheck connectionId fail k).wpS Logs I post log := by
  refine ⟨hI, ?_⟩
  rintro r _ rfl
  cases r with
  | none => exact hfail _
  | some info =>
    dsimp only
    split
    · exact hfail _
    · exact hk info

theorem acceptPublish_spec (m : BrokerMessage) (log : GateLog) :
    (acceptPublish m).wpS Logs (fun q _ => q.NoCallback)
      (fun out _ => ∀ m', out.2 = some m' → m' = m) log := by
  have hcollect : ∀ log : GateLog, Prog.wpS Logs (fun q _ => GateCall.NoCallback q)
      (fun out _ => ∀ m', out.2 = some m' → m' = m)
      (.ask (.collect m.connectionId m.topic) fun admitted =>
        if ¬ admitted then .ret (espErrNotAllowed, none) else .ret (espOk, some m)) log := by
    intro log
    refine ⟨nofun, ?_⟩
    rintro r _ rfl
    beta_reduce
    split
    · exact nofun
    · rintro _ ⟨⟩
      rfl
  refine recheck_spec nofun (fun _ => nofun) fun info => ⟨nofun, ?_⟩
  rintro r _ rfl
  beta_reduce
  split
  · exact nofun
  · refine recheck_spec nofun (fun _ => nofun) fun _ => ?_
    split
    · refine ⟨nofun, ?_⟩
      rintro err _ rfl
      beta_reduce
      split
      · exact nofun
      · exact hcollect _
    · exact hcollect _

theorem handlePublish_spec (publish : PublishPacket) (log : GateLog) :
    (handlePublish publish).wpS Logs (fun q _ => q.NoCallback)
      (fun out log' => ∀ m, out.2 = some m → ∃ info, Evidence publish info m log') log := by
  refine ⟨nofun, ?_⟩
  rintro r _ rfl
  cases r with
  | none => exact nofun
  | some info =>
    refine ⟨nofun, ?_⟩
    rintro ok _ rfl
    cases ok with
    | false => exact nofun
    | true =>
      refine recheck_spec nofun (fun _ => nofun) fun _ => ⟨nofun, ?_⟩
      rintro ok _ rfl
      cases ok with
      | false => exact nofun
      | true =>
        refine recheck_spec nofun (fun _ => nofun) fun _ => ⟨nofun, ?_⟩
        rintro ok _ rfl
        cases ok with
        | false =>
          rintro m ⟨⟩
          exact ⟨info, ⟨_, rfl⟩, by simp, by simp, by simp, nofun⟩
        | true =>
          refine wpS_mono (fun _ _ hI => hI.1) ?_ _ _ (wpS_logs (acceptPublish_spec _ _))
          rintro out log' ⟨hout, hle⟩ m hm
          obtain rfl := hout m hm
          refine ⟨info, Evidence.mono ⟨⟨true, rfl⟩, ?_, ?_, ?_, fun _ => ?_⟩ hle⟩
          all_goals simp

/-- **The packet loop**: a message is handed over with its evidence in the transcript. -/
theorem servePublish_spec (fixedHeader : UInt8) (packet : Bytes) (log : GateLog) :
    (servePublish fixedHeader packet).wpS Logs
      (fun q log' => ∀ m, q = .onMessage m →
        ∃ publish info, parsePublish fixedHeader packet = .ok publish ∧ Evidence publish info m log')
      (fun _ _ => True) log := by
  refine ⟨nofun, ?_⟩
  rintro ⟨connected, invalidated⟩ _ rfl
  cases invalidated with
  | true => trivial
  | false =>
    cases connected with
    | false => trivial
    | true =>
      refine ⟨nofun, ?_⟩
      rintro r _ rfl
      cases r with
      | none => trivial
      | some info =>
        refine ⟨nofun, ?_⟩
        rintro ok _ rfl
        cases ok with
        | false => trivial
        | true =>
          beta_reduce
          cases hparse : parsePublish fixedHeader packet with
          | error err => trivial
          | ok publish =>
            refine (wpS_bind _ _ _ _ _).mpr (wpS_mono ?_ ?_ _ _ (handlePublish_spec publish _))
            · intro q log' hq m heq
              exact absurd heq (hq m)
            · rintro ⟨err, out⟩ log' hout
              cases out with
              | none => trivial
              | some m =>
                obtain ⟨sender, hevidence⟩ := hout m rfl
                refine recheck_spec nofun (fun _ => trivial) fun _ => ⟨?_, fun _ _ _ => trivial⟩
                rintro _ ⟨⟩
                exact ⟨publish, sender, rfl, hevidence.mono (List.prefix_append _ _)⟩

/-! ## The moves of a packet -/

def GateAct.packetOf : GateAct → Option (Fin mqttMaxConnections)
  | .packet i _ _ => some i
  | _ => none

/-- The call of task `i` in a move, with its answer. -/
def calledBy (i : Fin mqttMaxConnections) (u : GateMove) : Option (Σ q : GateCall, q.Answer) :=
  match u.ev with
  | .call j err =>
    match u.pre.handling j with
    | some (.ask q _) => if j = i then some ⟨q, u.pre.answer i err q⟩ else none
    | _ => none
  | _ => none

theorem calledBy_answer {i : Fin mqttMaxConnections} {u : GateMove} {q : GateCall} {r : q.Answer}
    (h : calledBy i u = some ⟨q, r⟩) : ∃ err, r = u.pre.answer i err q := by
  unfold calledBy at h
  split at h
  · split at h
    · split at h
      · cases h
        exact ⟨_, rfl⟩
      · cases h
    · cases h
  · cases h

/-- Every answer of a transcript was given in one of its moves. -/
theorem answered {i : Fin mqttMaxConnections} {mid : List GateMove} {q : GateCall} {r : q.Answer}
    (h : ⟨q, r⟩ ∈ mid.filterMap (calledBy i)) : ∃ u ∈ mid, ∃ err, r = u.pre.answer i err q := by
  obtain ⟨u, hu, hcall⟩ := List.mem_filterMap.mp h
  exact ⟨u, hu, calledBy_answer hcall⟩

/-- Task `i` is at a packet, with `p` left to do; `mid` is what has happened since. -/
structure InPacket (ms : List GateMove) (i : Fin mqttMaxConnections) (p : GateProg EspErr)
    (fixedHeader : UInt8) (packet : Bytes) (mid : List GateMove) : Prop where
  split : ∃ before start, ms = before ++ start :: mid ∧ start.ev = .packet i fixedHeader packet
  only : ∀ u ∈ mid, u.ev.packetOf ≠ some i
  leads : Leads (servePublish fixedHeader packet) (mid.filterMap (calledBy i)) p

theorem InPacket.append {ms mid : List GateMove} {i : Fin mqttMaxConnections} {p p' : GateProg EspErr}
    {fixedHeader : UInt8} {packet : Bytes} {v : GateMove}
    (h : InPacket ms i p fixedHeader packet mid) (hv : v.ev.packetOf ≠ some i)
    (hleads : Leads (servePublish fixedHeader packet) ((mid ++ [v]).filterMap (calledBy i)) p') :
    InPacket (ms ++ [v]) i p' fixedHeader packet (mid ++ [v]) := by
  obtain ⟨before, start, rfl, hstart⟩ := h.split
  refine ⟨⟨before, start, by simp, hstart⟩, fun u hu => ?_, hleads⟩
  rcases List.mem_append.mp hu with hu | hu
  · exact h.only u hu
  · rw [List.mem_singleton.mp hu]
    exact hv

theorem filterMap_calledBy_append (mid : List GateMove) (i : Fin mqttMaxConnections) (v : GateMove) :
    (mid ++ [v]).filterMap (calledBy i) = mid.filterMap (calledBy i) ++ (calledBy i v).toList := by
  rw [List.filterMap_append]
  congr 1

/-- Another task's move. -/
theorem InPacket.other {ms mid : List GateMove} {i : Fin mqttMaxConnections} {p : GateProg EspErr}
    {fixedHeader : UInt8} {packet : Bytes} {v : GateMove}
    (h : InPacket ms i p fixedHeader packet mid) (hv : v.ev.packetOf ≠ some i)
    (hcall : calledBy i v = none) : InPacket (ms ++ [v]) i p fixedHeader packet (mid ++ [v]) := by
  refine h.append hv ?_
  rw [filterMap_calledBy_append, hcall, Option.toList_none, List.append_nil]
  exact h.leads

/-- The call of the task. -/
theorem InPacket.call {ms mid : List GateMove} {i : Fin mqttMaxConnections} {q : GateCall}
    {k : q.Answer → GateProg EspErr} {r : q.Answer} {fixedHeader : UInt8} {packet : Bytes}
    {v : GateMove} (h : InPacket ms i (.ask q k) fixedHeader packet mid)
    (hv : v.ev.packetOf ≠ some i) (hcall : calledBy i v = some ⟨q, r⟩) :
    InPacket (ms ++ [v]) i (k r) fixedHeader packet (mid ++ [v]) := by
  refine h.append hv ?_
  rw [filterMap_calledBy_append, hcall, Option.toList_some]
  exact h.leads.snoc r

/-! ## Vetted messages -/

/-- What was true of a message's sender and topic in the moves of its packet. -/
structure Passed (mid : List GateMove) (i : Fin mqttMaxConnections) (m : BrokerMessage) : Prop where
  admitted : ∃ u ∈ mid, (u.pre.broker.clients i).admitted m.connectionId = true ∧
    u.pre.principals i = m.principal
  revalidated : ∃ u ∈ mid,
    machineRevalidate u.pre.directory m.principal m.receivingInterface = true
  authorized : ∃ u ∈ mid, publishAllowed u.pre.topics m.principal m.topic = true
  policy : m.policyAdmitted = true → ∃ u ∈ mid, externalPublishAllowed u.pre.topics m = true

theorem Evidence.passed {publish : PublishPacket} {info : ClientInfo} {m : BrokerMessage}
    {mid : List GateMove} {i : Fin mqttMaxConnections}
    (h : Evidence publish info m (mid.filterMap (calledBy i))) : Passed mid i m := by
  obtain ⟨admitted, rfl⟩ := h.composed
  refine ⟨?_, ?_, ?_, fun hpolicy => ?_⟩
  · obtain ⟨u, hu, err, hinfo⟩ := answered h.admitted
    refine ⟨u, hu, ?_⟩
    replace hinfo : some info = u.pre.infoIfAdmitted i := hinfo
    unfold Gate.infoIfAdmitted at hinfo
    dsimp only at hinfo
    split at hinfo
    · next hadmitted =>
      cases hinfo
      exact ⟨hadmitted, rfl⟩
    · cases hinfo
  · obtain ⟨u, hu, err, hok⟩ := answered h.revalidated
    exact ⟨u, hu, hok.symm⟩
  · obtain ⟨u, hu, err, hok⟩ := answered h.authorized
    exact ⟨u, hu, hok.symm⟩
  · obtain ⟨u, hu, err, hok⟩ := answered (h.policy hpolicy)
    exact ⟨u, hu, hok.symm⟩

/-- The message comes from a PUBLISH of client `i`, and passed in the moves of that packet. -/
structure Vetting (ms : List GateMove) (m : BrokerMessage) (i : Fin mqttMaxConnections)
    (fixedHeader : UInt8) (packet : Bytes) (publish : PublishPacket) (start : GateMove)
    (mid : List GateMove) : Prop where
  split : ∃ before last after, ms = before ++ start :: (mid ++ last :: after) ∧
    calledBy i last = some ⟨.onMessage m, true⟩
  start : start.ev = .packet i fixedHeader packet
  only : ∀ u ∈ mid, u.ev.packetOf ≠ some i
  parsed : parsePublish fixedHeader packet = .ok publish
  composed : ∃ info admitted, m = { composeMessage publish info with policyAdmitted := admitted }
  passed : Passed mid i m

def Vetted (ms : List GateMove) (m : BrokerMessage) : Prop :=
  ∃ i fixedHeader packet publish start mid,
    Vetting ms m i fixedHeader packet publish start mid

theorem Vetted.append {ms : List GateMove} {m : BrokerMessage} (h : Vetted ms m) (v : GateMove) :
    Vetted (ms ++ [v]) m := by
  obtain ⟨i, fixedHeader, packet, publish, start, mid, h⟩ := h
  obtain ⟨before, last, after, rfl, hlast⟩ := h.split
  exact ⟨i, fixedHeader, packet, publish, start, mid,
    ⟨before, last, after ++ [v], by simp, hlast⟩, h.start, h.only, h.parsed, h.composed, h.passed⟩

/-- A message that is handed over is vetted. -/
theorem InPacket.vetted {ms mid : List GateMove} {i : Fin mqttMaxConnections} {q : GateCall}
    {k : q.Answer → GateProg EspErr} {r : q.Answer} {m : BrokerMessage} {fixedHeader : UInt8}
    {packet : Bytes} {v : GateMove} (h : InPacket ms i (.ask q k) fixedHeader packet mid)
    (hcall : calledBy i v = some ⟨q, r⟩)
    (htaken : (⟨q, r⟩ : Σ q : GateCall, q.Answer) = ⟨.onMessage m, true⟩) :
    Vetted (ms ++ [v]) m := by
  cases htaken
  have hspec := h.leads.of_wpS (servePublish_spec fixedHeader packet [])
  obtain ⟨publish, info, hparsed, hevidence⟩ := hspec.1 m rfl
  obtain ⟨admitted, hcomposed⟩ := hevidence.composed
  obtain ⟨before, start, rfl, hstart⟩ := h.split
  exact ⟨i, fixedHeader, packet, publish, start, mid, ⟨before, v, [], by simp, hcall⟩, hstart,
    h.only, hparsed, ⟨info, admitted, hcomposed⟩, hevidence.passed⟩

/-- Only a message the queue takes is new in it. -/
theorem Gate.mem_queueAfter {s : Gate} {q : GateCall} {r : q.Answer} {m : BrokerMessage}
    (h : m ∈ s.queueAfter q r) :
    m ∈ s.queue ∨ (⟨q, r⟩ : Σ q : GateCall, q.Answer) = ⟨.onMessage m, true⟩ := by
  unfold Gate.queueAfter at h
  split at h
  · refine (List.mem_append.mp h).imp_right fun hm => ?_
    rw [List.mem_singleton.mp hm]
  · exact .inl h

/-! ## What a step can do -/

/-- A step that no message is behind: time, the end of a connection, a restart. -/
def GateAct.background : GateAct → Bool
  | .tick _ | .disconnected _ | .prepareStart .. => true
  | _ => false

/-- The steps of the runtime task with a command. -/
def RuntimeAct.ofTask : RuntimeAct → Bool
  | .snapshot .. | .checkAuthority .. | .dispatch .. | .commit => true
  | _ => false

inductive GateCase (sha256 : Bytes → Option Digest) (s : Gate) : GateAct → Gate → Prop
  /-- The records, the directory, a tick, the end of a connection. -/
  | other (act : GateAct) (s' : Gate) (hpacket : ∀ i, act.packetOf ≠ some i)
      (hcall : ∀ i err, act ≠ .call i err) (hhandling : s'.handling = s.handling)
      (hqueue : s'.queue = s.queue) (hcurrent : s'.current = s.current)
      (htask : s'.runtime.task = s.runtime.task) (htopics : s'.topics = s.topics)
      (hruntime : act.background = false → s'.runtime = s.runtime) : GateCase sha256 s act s'
  | packet (i : Fin mqttMaxConnections) (fixedHeader : UInt8) (packet : Bytes) :
      GateCase sha256 s (.packet i fixedHeader packet)
        { s with handling := Function.update s.handling i (some (servePublish fixedHeader packet)) }
  | call (i : Fin mqttMaxConnections) (err : EspErr) (q : GateCall)
      (k : q.Answer → GateProg EspErr) (hask : s.handling i = some (.ask q k)) :
      GateCase sha256 s (.call i err)
        { s with
          handling := Function.update s.handling i (some (k (s.answer i err q)))
          queue := s.queueAfter q (s.answer i err q) }
  | finish (i : Fin mqttMaxConnections) (b : Broker) :
      GateCase sha256 s (.finish i)
        { s with handling := Function.update s.handling i none, broker := b }
  | take (m : BrokerMessage) (rest : List BrokerMessage) (hidle : s.current = none)
      (hqueue : s.queue = m :: rest) :
      GateCase sha256 s .take { s with current := some m, queue := rest }
  | drop (ctx : HandlerContext) (m : BrokerMessage) (hidle : s.runtime.task = .idle) :
      GateCase sha256 s (.handle ctx) { s with current := none }
  | handle (ctx : HandlerContext) (m : BrokerMessage) (act : RuntimeAct) (w : Runtime)
      (published : Option Bytes) (hcurrent : s.current = some m) (hidle : s.runtime.task = .idle)
      (hact : s.handleMessage ctx m = some act)
      (hnext : s.runtime.next sha256 act = some (published, w)) :
      GateCase sha256 s (.handle ctx) (s.taskDone w)
  | work (act : RuntimeAct) (w : Runtime) (published : Option Bytes)
      (hnext : s.runtime.next sha256 act = some (published, w))
      (hact : act.ofTask = true) : GateCase sha256 s (.work act) (s.taskDone w)
  | prepareStart (randomHigh randomLow : UInt32) (clientId unitId : Vector UInt8 33)
      (topics : MqttTopics) (w : Runtime) (hbuild : topicsBuild clientId unitId = .ok topics)
      (htask : w.task = s.runtime.task) :
      GateCase sha256 s (.prepareStart randomHigh randomLow clientId unitId)
        { s with runtime := w, topics := topics, queue := [] }

theorem next_session_task {sha256 : Bytes → Option Digest} {w w' : Runtime} {ev : SessionEvent}
    {published : Option Bytes} (h : w.next sha256 (.session ev) = some (published, w')) :
    w' = { w with session := (w.session.handle sha256 ev).2 } := by
  unfold Runtime.next at h
  dsimp only at h
  split at h
  · cases h
    rfl
  · cases h

theorem gateStep_case {sha256 : Bytes → Option Digest} {s s' : Gate} {act : GateAct}
    (h : gateStep sha256 s act s') : GateCase sha256 s act s' := by
  unfold gateStep at h
  cases act with
  | records act =>
    dsimp only [Gate.next] at h
    split at h
    · obtain ⟨b, -, rfl⟩ := Option.map_eq_some_iff.mp h
      exact .other _ _ nofun nofun rfl rfl rfl rfl rfl fun _ => rfl
    · cases h
  | commit directory =>
    cases h
    exact .other _ _ nofun nofun rfl rfl rfl rfl rfl fun _ => rfl
  | packet i fixedHeader packet =>
    dsimp only [Gate.next] at h
    split at h
    · cases h
      exact .packet i fixedHeader packet
    · cases h
  | call i err =>
    dsimp only [Gate.next] at h
    split at h
    · next q k hask =>
      cases h
      exact .call i err q k hask
    · cases h
  | finish i =>
    dsimp only [Gate.next] at h
    split at h
    · cases h
      exact .finish i _
    · cases h
  | take =>
    dsimp only [Gate.next] at h
    split at h
    · next m rest hidle hqueue =>
      cases h
      exact .take m rest hidle hqueue
    · cases h
  | handle ctx =>
    dsimp only [Gate.next] at h
    split at h
    · next m hcurrent hidle =>
      split at h
      · cases h
        exact .drop ctx m hidle
      · next act hact =>
        obtain ⟨⟨published, w⟩, hnext, rfl⟩ := Option.map_eq_some_iff.mp h
        exact .handle ctx m act w published hcurrent hidle hact hnext
    · cases h
  | work act =>
    dsimp only [Gate.next] at h
    split at h
    case h_5 => cases h
    all_goals
      obtain ⟨⟨published, w⟩, hnext, rfl⟩ := Option.map_eq_some_iff.mp h
      exact .work _ w published hnext rfl
  | tick nowMs =>
    dsimp only [Gate.next] at h
    obtain ⟨⟨published, w⟩, hnext, rfl⟩ := Option.map_eq_some_iff.mp h
    obtain rfl := next_session_task hnext
    exact .other _ _ nofun nofun rfl rfl rfl rfl rfl nofun
  | disconnected nowMs =>
    dsimp only [Gate.next] at h
    split at h
    · obtain ⟨⟨published, w⟩, hnext, rfl⟩ := Option.map_eq_some_iff.mp h
      obtain rfl := next_session_task hnext
      exact .other _ _ nofun nofun rfl rfl rfl rfl rfl nofun
    · cases h
  | prepareStart randomHigh randomLow clientId unitId =>
    dsimp only [Gate.next] at h
    split at h
    · cases h
    · next topics hbuild =>
      obtain ⟨⟨published, w⟩, hnext, rfl⟩ := Option.map_eq_some_iff.mp h
      refine .prepareStart randomHigh randomLow clientId unitId topics w hbuild ?_
      unfold Runtime.next at hnext
      dsimp only at hnext
      split at hnext
      · cases hnext
      · cases hnext
        rfl

/-! ## The runtime task -/

/-- The message and the command the runtime task is at. -/
def CommandPhase.job : CommandPhase → Option (Message × MqttCommand)
  | .idle => none
  | .admitted message command | .enveloped message command _ | .authorized message command _
  | .evaluated message command _ => some (message, command)

/-- The envelope has the type of the command's action. -/
def CommandPhase.EnvelopeTyped : CommandPhase → Prop
  | .enveloped _ command env | .authorized _ command env =>
    env.commandType = commandType command.action
  | _ => True

/-- What a step of the task with a command keeps. -/
structure TaskStep (w w' : Runtime) (act : RuntimeAct) : Prop where
  job : ∃ message command, w.task.job = some (message, command) ∧
    (w'.task = .idle ∨ w'.task.job = some (message, command))
  envelope : w.task.EnvelopeTyped → w'.task.EnvelopeTyped
  session : act ≠ .commit → w'.session = w.session

theorem taskStep_of_next {sha256 : Bytes → Option Digest} {w w' : Runtime} {act : RuntimeAct}
    {published : Option Bytes} (h : w.next sha256 act = some (published, w'))
    (hact : act.ofTask = true) : TaskStep w w' act := by
  unfold Runtime.next at h
  split at h
  · cases hact
  · next htask =>
    cases h
    exact ⟨⟨_, _, congrArg CommandPhase.job htask, .inl rfl⟩, fun _ => trivial, fun _ => rfl⟩
  · next htask =>
    cases h
    exact ⟨⟨_, _, congrArg CommandPhase.job htask, .inr rfl⟩, fun _ => rfl, fun _ => rfl⟩
  · next htask =>
    split at h
    · cases h
      exact ⟨⟨_, _, congrArg CommandPhase.job htask, .inl rfl⟩, fun _ => trivial, fun _ => rfl⟩
    · cases h
      refine ⟨⟨_, _, congrArg CommandPhase.job htask, .inr rfl⟩, fun htyped => ?_, fun _ => rfl⟩
      rw [htask] at htyped
      exact htyped
  · next htask =>
    cases h
    exact ⟨⟨_, _, congrArg CommandPhase.job htask, .inr rfl⟩, fun _ => trivial, fun _ => rfl⟩
  · next htask =>
    cases h
    exact ⟨⟨_, _, congrArg CommandPhase.job htask, .inl rfl⟩, fun _ => trivial,
      fun hcommit => absurd rfl hcommit⟩
  · cases hact
  · cases hact
  · cases h

/-- Only an admitted message gets a command into the task. -/
theorem receive_next {sha256 : Bytes → Option Digest} {w w' : Runtime} {message : Message}
    {action : MqttAction} {maxRpmMilli : Nat} {ctx : ResultContext} {published : Option Bytes}
    (h : w.next sha256 (.receive message action maxRpmMilli ctx) = some (published, w')) :
    w'.session = w.session ∧ (w'.task = .idle ∨ ∃ command, w'.task = .admitted message command ∧
      command.action = action ∧ message.policyAdmitted = true) := by
  unfold Runtime.next at h
  split at h
  case h_1 message action maxRpmMilli ctx hact htask =>
    cases hact
    cases h
    refine ⟨rfl, ?_⟩
    rcases receiveCommand_cases w.session.core message action maxRpmMilli ctx with
      ⟨doc, hr⟩ | ⟨command, hdecode, -, -, hr⟩
    · exact .inl (congrArg Prod.snd hr)
    · refine .inr ⟨command, congrArg Prod.snd hr, (decodeCommand_spec hdecode).1, ?_⟩
      by_contra hpolicy
      unfold receiveCommand at hr
      rw [hdecode] at hr
      dsimp only at hr
      rw [if_pos hpolicy] at hr
      cases hr
  case h_7 hact => cases hact
  case h_8 hact => cases hact
  case h_9 => cases h
  all_goals next hact _ => cases hact

/-! ## The invariant -/

/-- The command the runtime task is at comes from the message it has taken. -/
structure AtCommand (s : Gate) (ms : List GateMove) (message : Message) (command : MqttCommand)
    (m : BrokerMessage) : Prop where
  current : s.current = some m
  message : message = m.toMessage
  admitted : m.policyAdmitted = true
  denotes : ∃ u ∈ ms, u.pre.topics.classify m.topic = .command command.action

structure GateInv (s : Gate) (ms : List GateMove) : Prop where
  handling : ∀ i p, s.handling i = some p → ∃ fixedHeader packet mid,
    InPacket ms i p fixedHeader packet mid
  queue : ∀ m ∈ s.queue, Vetted ms m
  current : ∀ m, s.current = some m → Vetted ms m
  job : ∀ message command, s.runtime.task.job = some (message, command) →
    ∃ m, AtCommand s ms message command m
  envelope : s.runtime.task.EnvelopeTyped
  built : s.topics.Built
  past : ∀ u ∈ ms, u.pre.topics.Built

theorem calledBy_none {i : Fin mqttMaxConnections} {v : GateMove}
    (h : ∀ err, v.ev ≠ .call i err) : calledBy i v = none := by
  unfold calledBy
  split
  · next j err hev =>
    split
    · split
      · next hij => exact absurd (hij ▸ hev) (h err)
      · rfl
    · rfl
  · rfl

theorem calledBy_call {i : Fin mqttMaxConnections} {err : EspErr} {s s' : Gate} {q : GateCall}
    {k : q.Answer → GateProg EspErr} (hask : s.handling i = some (.ask q k)) :
    calledBy i ⟨s, .call i err, s'⟩ = some ⟨q, s.answer i err q⟩ := by
  unfold calledBy
  dsimp only
  rw [hask]
  exact if_pos rfl

/-! ### The packets -/

theorem handling_other {s s' : Gate} {ms : List GateMove} {v : GateMove} (h : GateInv s ms)
    {i : Fin mqttMaxConnections} {p : GateProg EspErr} (hp : s'.handling i = some p)
    (hsame : s'.handling i = s.handling i) (hpacket : v.ev.packetOf ≠ some i)
    (hcall : ∀ err, v.ev ≠ .call i err) :
    ∃ fixedHeader packet mid, InPacket (ms ++ [v]) i p fixedHeader packet mid := by
  obtain ⟨fixedHeader, packet, mid, hin⟩ := h.handling i p (hsame ▸ hp)
  exact ⟨fixedHeader, packet, mid ++ [v], hin.other hpacket (calledBy_none hcall)⟩

theorem handling_step {sha256 : Bytes → Option Digest} {s s' : Gate} {act : GateAct}
    {ms : List GateMove} (h : GateInv s ms) (hs : GateCase sha256 s act s')
    (i : Fin mqttMaxConnections) (p : GateProg EspErr) (hp : s'.handling i = some p) :
    ∃ fixedHeader packet mid, InPacket (ms ++ [⟨s, act, s'⟩]) i p fixedHeader packet mid := by
  cases hs with
  | other act s' hpacket hcall hhandling =>
    exact handling_other h hp (congrFun hhandling i) (hpacket i) (hcall i)
  | packet j fixedHeader packet =>
    by_cases hij : i = j
    · subst hij
      dsimp only at hp
      rw [Function.update_self] at hp
      cases hp
      exact ⟨fixedHeader, packet, [], ⟨ms, _, rfl, rfl⟩, fun _ hu => absurd hu List.not_mem_nil,
        .refl _⟩
    · refine handling_other h hp (Function.update_of_ne hij _ _) (fun heq => ?_) nofun
      exact hij (Option.some.inj heq).symm
  | call j err q k hask =>
    by_cases hij : i = j
    · subst hij
      dsimp only at hp
      rw [Function.update_self] at hp
      cases hp
      obtain ⟨fixedHeader, packet, mid, hin⟩ := h.handling i _ hask
      exact ⟨fixedHeader, packet, mid ++ [_], hin.call nofun (calledBy_call hask)⟩
    · refine handling_other h hp (Function.update_of_ne hij _ _) nofun fun err' heq => ?_
      cases heq
      exact hij rfl
  | finish j b =>
    by_cases hij : i = j
    · subst hij
      dsimp only at hp
      rw [Function.update_self] at hp
      cases hp
    · exact handling_other h hp (Function.update_of_ne hij _ _) nofun nofun
  | take => exact handling_other h hp rfl nofun nofun
  | drop => exact handling_other h hp rfl nofun nofun
  | handle => exact handling_other h hp rfl nofun nofun
  | work => exact handling_other h hp rfl nofun nofun
  | prepareStart => exact handling_other h hp rfl nofun nofun

/-! ### The messages -/

theorem queue_step {sha256 : Bytes → Option Digest} {s s' : Gate} {act : GateAct}
    {ms : List GateMove} (h : GateInv s ms) (hs : GateCase sha256 s act s') :
    ∀ m ∈ s'.queue, Vetted (ms ++ [⟨s, act, s'⟩]) m := by
  have hold : ∀ v, ∀ m ∈ s.queue, Vetted (ms ++ [v]) m := fun v m hm => (h.queue m hm).append v
  cases hs with
  | other act s' _ _ _ hqueue =>
    rw [hqueue]
    exact hold _
  | call i err q k hask =>
    intro m hm
    rcases Gate.mem_queueAfter hm with hm | htaken
    · exact hold _ m hm
    · obtain ⟨fixedHeader, packet, mid, hin⟩ := h.handling i _ hask
      exact hin.vetted (calledBy_call hask) htaken
  | take m rest hidle hqueue =>
    exact fun m' hm => hold _ m' (hqueue ▸ List.mem_cons_of_mem _ hm)
  | prepareStart => exact nofun
  | _ => exact hold _

theorem current_step {sha256 : Bytes → Option Digest} {s s' : Gate} {act : GateAct}
    {ms : List GateMove} (h : GateInv s ms) (hs : GateCase sha256 s act s') :
    ∀ m, s'.current = some m → Vetted (ms ++ [⟨s, act, s'⟩]) m := by
  have hold : ∀ v m, s.current = some m → Vetted (ms ++ [v]) m :=
    fun v m hm => (h.current m hm).append v
  have hdone : ∀ v w m, (s.taskDone w).current = some m → Vetted (ms ++ [v]) m := by
    intro v w m hm
    replace hm : (if w.task = .idle then none else s.current) = some m := hm
    split at hm
    · cases hm
    · exact hold v m hm
  cases hs with
  | other act s' _ _ _ _ hcurrent =>
    rw [hcurrent]
    exact hold _
  | take m rest hidle hqueue =>
    rintro _ ⟨⟩
    exact (h.queue m (hqueue ▸ List.mem_cons_self)).append _
  | drop => exact nofun
  | handle => exact hdone _ _
  | work => exact hdone _ _
  | _ => exact hold _

/-! ### The runtime task -/

/-- What `handle_message` hands to the session or to `handle_command`. -/
theorem Gate.handleMessage_cases {s : Gate} {ctx : HandlerContext} {m : BrokerMessage}
    {act : RuntimeAct} (h : s.handleMessage ctx m = some act) :
    (∃ ev, act = .session ev ∧ s.topics.classify m.topic ≠ .none ∧
      (m.policyAdmitted = true ∨ ev.act = .heartbeat m.toMessage)) ∨
    ∃ action, act = .receive m.toMessage action ctx.maxRpmMilli ctx.result ∧
      s.topics.classify m.topic = .command action := by
  unfold Gate.handleMessage at h
  have hauthority : ∀ act' : RuntimeAct,
      (if ¬ m.policyAdmitted ∨ m.principal.permissions &&& permissionRequestAuthority = 0 then none
        else some act') = some act → m.policyAdmitted = true ∧ act' = act := by
    intro act' h
    split at h
    · cases h
    · next hguard =>
      cases h
      exact ⟨not_not.mp (not_or.mp hguard).1, rfl⟩
  cases hclass : s.topics.classify m.topic with
  | none =>
    rw [hclass] at h
    cases h
  | heartbeat =>
    rw [hclass] at h
    cases h
    exact .inl ⟨_, rfl, nofun, .inr rfl⟩
  | requestAuthority =>
    rw [hclass] at h
    obtain ⟨hpolicy, rfl⟩ := hauthority _ h
    exact .inl ⟨_, rfl, nofun, .inl hpolicy⟩
  | releaseAuthority =>
    rw [hclass] at h
    obtain ⟨hpolicy, rfl⟩ := hauthority _ h
    exact .inl ⟨_, rfl, nofun, .inl hpolicy⟩
  | command action =>
    rw [hclass] at h
    cases h
    exact .inr ⟨action, rfl, rfl⟩

/-- A heartbeat that is not admitted is dropped. -/
theorem handle_heartbeat_dropped {sha256 : Bytes → Option Digest} {session : Session}
    {ev : SessionEvent} {message : Message} (hev : ev.act = .heartbeat message)
    (hpolicy : ¬ message.policyAdmitted = true) :
    (session.handle sha256 ev).2.core = session.core := by
  unfold Session.handle
  rw [hev]
  dsimp only
  unfold handleHeartbeat
  rw [if_pos hpolicy]

/-- What `handle_message` does with a message: only an admitted one gets a command into the
task or changes the session core. -/
theorem handle_spec {sha256 : Bytes → Option Digest} {s : Gate} {ctx : HandlerContext}
    {m : BrokerMessage} {act : RuntimeAct} {w : Runtime} {published : Option Bytes}
    (hidle : s.runtime.task = .idle) (hact : s.handleMessage ctx m = some act)
    (hnext : s.runtime.next sha256 act = some (published, w)) :
    (w.task = .idle ∨ ∃ command, w.task = .admitted m.toMessage command ∧
      m.policyAdmitted = true ∧ s.topics.classify m.topic = .command command.action) ∧
    (w.session.core = s.runtime.session.core ∨
      m.policyAdmitted = true ∧ s.topics.classify m.topic ≠ .none) := by
  rcases Gate.handleMessage_cases hact with ⟨ev, rfl, hclass, hsource⟩ | ⟨action, rfl, hclass⟩
  · obtain rfl := next_session_task hnext
    refine ⟨.inl hidle, ?_⟩
    by_cases hpolicy : m.policyAdmitted = true
    · exact .inr ⟨hpolicy, hclass⟩
    · exact .inl (handle_heartbeat_dropped (hsource.resolve_left hpolicy) hpolicy)
  · obtain ⟨hsession, htask⟩ := receive_next hnext
    refine ⟨htask.imp_right ?_, .inl (by rw [hsession])⟩
    rintro ⟨command, hadmitted, rfl, hpolicy⟩
    exact ⟨command, hadmitted, hpolicy, hclass⟩

theorem AtCommand.append {s s' : Gate} {ms : List GateMove} {message : Message}
    {command : MqttCommand} {m : BrokerMessage} (h : AtCommand s ms message command m)
    (hcurrent : s'.current = s.current) (v : GateMove) :
    AtCommand s' (ms ++ [v]) message command m := by
  obtain ⟨u, hu, hdenotes⟩ := h.denotes
  exact ⟨hcurrent.trans h.current, h.message, h.admitted,
    ⟨u, List.mem_append_left _ hu, hdenotes⟩⟩

/-- The task keeps its message until it is idle. -/
theorem Gate.taskDone_current {s : Gate} {w : Runtime} {job : Message × MqttCommand}
    (h : w.task.job = some job) : (s.taskDone w).current = s.current := by
  have hne : w.task ≠ .idle := by
    intro hidle
    rw [hidle] at h
    cases h
  exact if_neg hne

theorem job_step {sha256 : Bytes → Option Digest} {s s' : Gate} {act : GateAct}
    {ms : List GateMove} (h : GateInv s ms) (hs : GateCase sha256 s act s')
    (message : Message) (command : MqttCommand)
    (hjob : s'.runtime.task.job = some (message, command)) :
    ∃ m, AtCommand s' (ms ++ [⟨s, act, s'⟩]) message command m := by
  have hold : ∀ v, s'.current = s.current → s.runtime.task.job = some (message, command) →
      ∃ m, AtCommand s' (ms ++ [v]) message command m := by
    intro v hcurrent hsame
    obtain ⟨m, hm⟩ := h.job message command hsame
    exact ⟨m, hm.append hcurrent v⟩
  have hvacuous : s.runtime.task = .idle → s.runtime.task.job ≠ some (message, command) := by
    intro hidle
    rw [hidle]
    nofun
  cases hs with
  | other act s' _ _ _ _ hcurrent htask => exact hold _ hcurrent (htask ▸ hjob)
  | take m rest hidle =>
    obtain ⟨m', hm'⟩ := h.job message command hjob
    cases hidle.symm.trans hm'.current
  | drop ctx m hidle => exact absurd hjob (hvacuous hidle)
  | handle ctx m act w published hcurrent hidle hact hnext =>
    rcases (handle_spec hidle hact hnext).1 with htask | ⟨command', htask, hpolicy, hclass⟩
    · replace hjob : w.task.job = some (message, command) := hjob
      rw [htask] at hjob
      cases hjob
    · refine ⟨m, (Gate.taskDone_current hjob).trans hcurrent, ?_, hpolicy, ?_⟩
      · replace hjob : w.task.job = some (message, command) := hjob
        rw [htask] at hjob
        cases hjob
        rfl
      · replace hjob : w.task.job = some (message, command) := hjob
        rw [htask] at hjob
        cases hjob
        exact ⟨_, List.mem_append_right _ (List.mem_singleton_self _), hclass⟩
  | work act w published hnext hact =>
    obtain ⟨message', command', hbefore, hidle | hafter⟩ := (taskStep_of_next hnext hact).job
    · replace hjob : w.task.job = some (message, command) := hjob
      rw [hidle] at hjob
      cases hjob
    · cases hjob.symm.trans hafter
      exact hold _ (Gate.taskDone_current hjob) hbefore
  | prepareStart _ _ _ _ _ _ _ htask =>
    replace hjob := htask ▸ hjob
    exact hold _ rfl hjob
  | _ => exact hold _ rfl hjob

theorem envelope_step {sha256 : Bytes → Option Digest} {s s' : Gate} {act : GateAct}
    (h : s.runtime.task.EnvelopeTyped) (hs : GateCase sha256 s act s') :
    s'.runtime.task.EnvelopeTyped := by
  cases hs with
  | other act s' _ _ _ _ _ htask => exact htask ▸ h
  | handle ctx m act w published hcurrent hidle hact hnext =>
    rcases (handle_spec hidle hact hnext).1 with htask | ⟨command, htask, -⟩
    · change w.task.EnvelopeTyped
      rw [htask]
      trivial
    · change w.task.EnvelopeTyped
      rw [htask]
      trivial
  | work act w published hnext hact => exact (taskStep_of_next hnext hact).envelope h
  | prepareStart _ _ _ _ _ w _ htask =>
    change w.task.EnvelopeTyped
    rw [htask]
    exact h
  | _ => exact h

theorem built_step {sha256 : Bytes → Option Digest} {s s' : Gate} {act : GateAct}
    (h : s.topics.Built) (hs : GateCase sha256 s act s') : s'.topics.Built := by
  cases hs with
  | other act s' _ _ _ _ _ _ htopics => exact htopics ▸ h
  | prepareStart _ _ clientId unitId topics w hbuild => exact ⟨clientId, unitId, hbuild⟩
  | _ => exact h

theorem GateInv.step {sha256 : Bytes → Option Digest} {s s' : Gate} {act : GateAct}
    {ms : List GateMove} (h : GateInv s ms) (hs : gateStep sha256 s act s') :
    GateInv s' (ms ++ [⟨s, act, s'⟩]) := by
  have hcase := gateStep_case hs
  refine ⟨handling_step h hcase, queue_step h hcase, current_step h hcase, job_step h hcase,
    envelope_step h.envelope hcase, built_step h.built hcase, fun u hu => ?_⟩
  rcases List.mem_append.mp hu with hu | hu
  · exact h.past u hu
  · rw [List.mem_singleton.mp hu]
    exact h.built

theorem GateInv.start (nextConnectionId : UInt64) (directory : List MachineGrant) (session : Bytes)
    {topics : MqttTopics} (h : topics.Built) :
    GateInv (.start nextConnectionId directory session topics) [] where
  handling _ _ hp := by cases hp
  queue _ hm := absurd hm List.not_mem_nil
  current _ hm := by cases hm
  job _ _ hjob := by cases hjob
  envelope := trivial
  built := h
  past _ hu := absurd hu List.not_mem_nil

/-! ## The gate -/

theorem publishAllowed_spec {topics : MqttTopics} {principal : MachinePrincipal} {topic : Bytes}
    (h : publishAllowed topics principal topic = true) :
    (principal.topicScope = txt "*" ∨ Below principal.topicScope topic) ∧
      requiredPermission topics topic ≠ 0 ∧
      principal.permissions &&& requiredPermission topics topic =
        requiredPermission topics topic := by
  unfold publishAllowed at h
  split at h
  · cases h
  · next hscope =>
    refine ⟨topicScopeContains_below (not_not.mp hscope), ?_⟩
    simpa using h

theorem externalPublishAllowed_spec {topics : MqttTopics} {m : BrokerMessage}
    (h : externalPublishAllowed topics m = true) : m.retain = false := by
  unfold externalPublishAllowed at h
  split at h
  · cases h
  · next hguard => exact Bool.eq_false_iff.mpr fun hretain => hguard (.inl hretain)

/-- What a message needs for `action`. -/
structure Allowed (ms : List GateMove) (m : BrokerMessage) (action : TopicAction) : Prop where
  vetted : Vetted ms m
  denotes : action ≠ .none ∧ ∃ u ∈ ms, u.pre.topics.classify m.topic = action
  scope : m.principal.topicScope = txt "*" ∨ Below m.principal.topicScope m.topic
  permission : action.permission ≠ 0 ∧
    m.principal.permissions &&& action.permission = action.permission
  retain : m.retain = false

/-- The classifier answers the broker and the runtime alike. -/
theorem GateInv.allowed {s : Gate} {ms : List GateMove} {v : GateMove} {m : BrokerMessage}
    {action : TopicAction} (h : GateInv s ms) (hcurrent : s.current = some m)
    (hpolicy : m.policyAdmitted = true) (hnone : action ≠ .none)
    (hdenotes : ∃ u ∈ ms ++ [v], u.pre.topics.classify m.topic = action ∧ u.pre.topics.Built) :
    Allowed (ms ++ [v]) m action := by
  obtain ⟨u, hu, rfl, hbuilt⟩ := hdenotes
  obtain ⟨i, fixedHeader, packet, publish, start, mid, hv⟩ := h.current m hcurrent
  have hmid : ∀ w ∈ mid, w ∈ ms := by
    intro w hw
    obtain ⟨before, last, after, rfl, -⟩ := hv.split
    simp [hw]
  obtain ⟨a, ha, hauthorized⟩ := hv.passed.authorized
  obtain ⟨b, -, hexternal⟩ := hv.passed.policy hpolicy
  obtain ⟨hscope, hrequired, hheld⟩ := publishAllowed_spec hauthorized
  have hagree : a.pre.topics.classify m.topic = u.pre.topics.classify m.topic := by
    refine classify_agree (h.past a (hmid a ha)) hbuilt (fun hnone => hrequired ?_) hnone
    unfold requiredPermission
    rw [hnone]
    rfl
  unfold requiredPermission at hrequired hheld
  rw [hagree] at hrequired hheld
  exact ⟨(h.current m hcurrent).append v, ⟨hnone, u, hu, rfl⟩, hscope, ⟨hrequired, hheld⟩,
    externalPublishAllowed_spec hexternal⟩

/-- The command the runtime task is at. -/
theorem GateInv.allowed_command {s : Gate} {ms : List GateMove} {v : GateMove} {message : Message}
    {command : MqttCommand} (h : GateInv s ms)
    (hjob : s.runtime.task.job = some (message, command)) :
    ∃ m, s.current = some m ∧ message = m.toMessage ∧
      Allowed (ms ++ [v]) m (.command command.action) := by
  obtain ⟨m, hm⟩ := h.job message command hjob
  obtain ⟨u, hu, hdenotes⟩ := hm.denotes
  exact ⟨m, hm.current, hm.message, h.allowed hm.current hm.admitted nofun
    ⟨u, List.mem_append_left _ hu, hdenotes, h.past u hu⟩⟩

theorem gateInv_of_run {sha256 : Bytes → Option Digest} {nextConnectionId : UInt64}
    {directory : List MachineGrant} {session : Bytes} {topics : MqttTopics} {ms : List GateMove}
    (hbuilt : topics.Built)
    (h : IsRun (gateStep sha256) (.start nextConnectionId directory session topics) ms) :
    GateInv (final (Gate.start nextConnectionId directory session topics) ms) ms :=
  h.inv_past (GateInv.start nextConnectionId directory session hbuilt) fun _ _ hinv hs =>
    hinv.step hs

theorem dispatch_next {sha256 : Bytes → Option Digest} {w w' : Runtime} {err : EspErr}
    {ctx : ResultContext} {published : Option Bytes}
    (h : w.next sha256 (.dispatch err ctx) = some (published, w')) :
    ∃ message command env, w.task = .authorized message command env := by
  unfold Runtime.next at h
  split at h
  case h_5 htask => exact ⟨_, _, _, htask⟩
  case h_7 hact => cases hact
  case h_8 hact => cases hact
  case h_9 => cases h
  all_goals next hact _ => cases hact

/-- A command that is dispatched has the type its topic denotes. -/
theorem GateInv.dispatch {sha256 : Bytes → Option Digest} {s s' : Gate} {ms : List GateMove}
    {err : EspErr} {ctx : ResultContext} (h : GateInv s ms)
    (hs : gateStep sha256 s (.work (.dispatch err ctx)) s') (v : GateMove) :
    ∃ message command env m, s.runtime.task = .authorized message command env ∧
      s.current = some m ∧ message = m.toMessage ∧ env.commandType = commandType command.action ∧
      Allowed (ms ++ [v]) m (.command command.action) := by
  obtain ⟨⟨published, w⟩, hnext, -⟩ := Option.map_eq_some_iff.mp hs
  obtain ⟨message, command, env, htask⟩ := dispatch_next hnext
  have henvelope := h.envelope
  rw [htask] at henvelope
  obtain ⟨m, hcurrent, hmessage, hallowed⟩ :=
    h.allowed_command (v := v) (congrArg CommandPhase.job htask)
  exact ⟨message, command, env, m, htask, hcurrent, hmessage, henvelope, hallowed⟩

/-- The message a step changes the session core for. -/
theorem GateInv.core_change {sha256 : Bytes → Option Digest} {s s' : Gate} {act : GateAct}
    {ms : List GateMove} (h : GateInv s ms) (hs : gateStep sha256 s act s')
    (hact : act.background = false)
    (hchange : s'.runtime.session.core ≠ s.runtime.session.core) :
    ∃ m action, s.current = some m ∧ Allowed (ms ++ [⟨s, act, s'⟩]) m action := by
  cases gateStep_case hs with
  | other act s' _ _ _ _ _ _ _ hruntime => exact absurd (by rw [hruntime hact]) hchange
  | handle ctx m act w published hcurrent hidle hhandle hnext =>
    obtain ⟨hpolicy, hclass⟩ := (handle_spec hidle hhandle hnext).2.resolve_left hchange
    exact ⟨m, _, hcurrent, h.allowed hcurrent hpolicy hclass
      ⟨_, List.mem_append_right _ (List.mem_singleton_self _), rfl, h.built⟩⟩
  | work act w published hnext htask =>
    obtain ⟨message, command, hjob, -⟩ := (taskStep_of_next hnext htask).job
    obtain ⟨m, hcurrent, -, hallowed⟩ := h.allowed_command hjob
    exact ⟨m, _, hcurrent, hallowed⟩
  | prepareStart => cases hact
  | _ => exact absurd rfl hchange

/-- **The capability gate**: a command is dispatched, and the session core changed other than
by time, a restart or the end of a connection, only for a PUBLISH that passed every gate. -/
theorem capability_gate (sha256 : Bytes → Option Digest) (nextConnectionId : UInt64)
    (directory : List MachineGrant) (session : Bytes) {topics : MqttTopics} {ms : List GateMove}
    {v : GateMove} (hbuilt : topics.Built)
    (h : IsRun (gateStep sha256) (.start nextConnectionId directory session topics) (ms ++ [v])) :
    (∀ err ctx, v.ev = .work (.dispatch err ctx) →
      ∃ message command env m, v.pre.runtime.task = .authorized message command env ∧
        v.pre.current = some m ∧ message = m.toMessage ∧
        env.commandType = commandType command.action ∧
        Allowed (ms ++ [v]) m (.command command.action)) ∧
    (v.post.runtime.session.core ≠ v.pre.runtime.session.core → v.ev.background = false →
      ∃ m action, v.pre.current = some m ∧ Allowed (ms ++ [v]) m action) := by
  rw [isRun_append, isRun_cons] at h
  obtain ⟨hms, hpre, hs, -⟩ := h
  have hinv := gateInv_of_run hbuilt hms
  rw [← hpre] at hinv
  obtain ⟨s, act, s'⟩ := v
  refine ⟨?_, fun hchange hact => hinv.core_change hs hact hchange⟩
  rintro err ctx rfl
  exact hinv.dispatch hs _

/-! ### A panel -/

def panelMachine : MachineGrant where
  toMachineEntry := panelEntry
  scope := txt "*"
  topicScope := txt "argus/paladin"
  permissions := permissionRequestAuthority
  credentialVersion := 1
  principalRevision := 1
  recordSecurityEpoch := 1

def panelGate : Gate := .start 0 [panelMachine] (txt "0123456789abcdef") unitTopics

theorem unitTopics_built : unitTopics.Built := ⟨unitClient, unitName, unitTopics_build⟩

/-- A PUBLISH of QoS 1 with the packet identifier 7. -/
def publishOf (topic payload : Bytes) : Bytes :=
  [0, UInt8.ofNat topic.length] ++ topic ++ [0, 7] ++ payload

/-- The panel connects and requests authority; the runtime task takes the message. -/
def panelRequests : List GateAct :=
  (panelConnects 54 0).map .records ++
    .packet 0 0x32 (publishOf (unitTopics.topic .commandRequestAuthority)
      (requestPayload (txt "r-1") (txt "0"))) ::
    List.replicate 15 (.call 0 espOk) ++ [.finish 0, .take]

def panelHandler : HandlerContext :=
  ⟨1000, authorityProfileArguscorePreferred, false, false, 3000000, ⟨1, 1, .unlocked⟩⟩

/-- The panel holds the lease and its connection ends. -/
def panelDeparts : List GateAct :=
  panelRequests ++ [.handle panelHandler, .records (.leave 0), .records (.close 0)]

def gateAt (acts : List GateAct) : Gate := final panelGate (gateTrace mbedtlsSha256 panelGate acts)

theorem isRun_gateAt (acts : List GateAct) {act : GateAct} {s' : Gate}
    (h : (gateAt acts).next mbedtlsSha256 act = some s') :
    IsRun (gateStep mbedtlsSha256) panelGate
      (gateTrace mbedtlsSha256 panelGate acts ++ [⟨gateAt acts, act, s'⟩]) :=
  (isRun_append _ _ _).mpr ⟨isRun_gateTrace _ _ _, rfl, h, trivial⟩

/-- A step that changes the session core. -/
def Gate.changesCore (s : Gate) (act : GateAct) : Bool :=
  (s.next mbedtlsSha256 act).any fun s' => s'.runtime.session.core ≠ s.runtime.session.core

theorem Gate.changesCore_iff {s : Gate} {act : GateAct} : s.changesCore act = true ↔
    ∃ s', s.next mbedtlsSha256 act = some s' ∧
      s'.runtime.session.core ≠ s.runtime.session.core := by
  unfold changesCore
  rw [Option.any_eq_true]
  simp only [decide_eq_true_eq]

/-- The request is granted. -/
theorem capability_gate_panel :
    ∃ s', (gateAt panelRequests).next mbedtlsSha256 (.handle panelHandler) = some s' ∧
      ∃ m action, (gateAt panelRequests).current = some m ∧
        Allowed (gateTrace mbedtlsSha256 panelGate panelRequests ++
          [⟨gateAt panelRequests, .handle panelHandler, s'⟩]) m action := by
  obtain ⟨s', hnext, hchange⟩ := Gate.changesCore_iff.mp
    (by decide +kernel : (gateAt panelRequests).changesCore (.handle panelHandler) = true)
  have hrun := isRun_gateAt panelRequests hnext
  generalize gateAt panelRequests = s at *
  have hgate := capability_gate mbedtlsSha256 0 [panelMachine] (txt "0123456789abcdef")
    unitTopics_built hrun
  exact ⟨s', hnext, hgate.2 hchange rfl⟩

/-- The end of a connection changes the session core too, and is no PUBLISH. -/
theorem core_change_without_publish :
    ¬ ∀ (sha256 : Bytes → Option Digest) (nextConnectionId : UInt64)
      (directory : List MachineGrant) (session : Bytes) (topics : MqttTopics)
      (ms : List GateMove) (v : GateMove), topics.Built →
      IsRun (gateStep sha256) (.start nextConnectionId directory session topics) (ms ++ [v]) →
      (∀ nowMs, v.ev ≠ .tick nowMs) →
      (∀ randomHigh randomLow clientId unitId,
        v.ev ≠ .prepareStart randomHigh randomLow clientId unitId) →
      v.post.runtime.session.core ≠ v.pre.runtime.session.core →
        ∃ m action, v.pre.current = some m ∧ Allowed (ms ++ [v]) m action := by
  intro h
  obtain ⟨s', hnext, hchange⟩ := Gate.changesCore_iff.mp
    (by decide +kernel : (gateAt panelDeparts).changesCore (.disconnected 2000) = true)
  have hidle : (gateAt panelDeparts).current = none := by decide +kernel
  have hrun := isRun_gateAt panelDeparts hnext
  generalize gateAt panelDeparts = s at *
  obtain ⟨m, -, hcurrent, -⟩ := h mbedtlsSha256 0 [panelMachine] (txt "0123456789abcdef")
    unitTopics _ _ unitTopics_built hrun nofun nofun hchange
  cases hidle.symm.trans hcurrent

end Argus
