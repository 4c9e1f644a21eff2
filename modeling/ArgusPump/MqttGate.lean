import ArgusPump.Broker
import ArgusPump.MqttCommand
import ArgusPump.MqttTopics
import ArgusPump.Lib.Prog

/-!
# From a packet to the runtime

The way of a PUBLISH through `main/argus_mqtt_broker.c` and `main/argus_mqtt_runtime.c`:
the packet loop of a client task and `argus_mqtt_handle_publish` as a program over what it
asks of the records, the directory and the topics, the runtime queue, and `handle_message`
on the runtime task.  The broker's other steps, the directory and a restart of the runtime
come in between.

Left out: the bytes sent to sockets, the other packet types, the baseline events in the
queue and the delivery to subscribers.
-/

namespace Argus

open Interact

abbrev mqttRuntimeQueueDepth : Nat := 12

/-! ## The directory -/

/-- `argus_security_machine_record_t` with the fields a principal is checked against. -/
structure MachineGrant extends MachineEntry where
  scope : Bytes
  topicScope : Bytes
  permissions : PermissionSet
  credentialVersion : UInt32
  principalRevision : UInt32
  recordSecurityEpoch : UInt32
deriving DecidableEq

/-- `principal_from_record`. -/
def MachineGrant.principal (r : MachineGrant) : MachinePrincipal where
  toPrincipal := principalFromRecord r.toMachineEntry
  scope := r.scope
  topicScope := r.topicScope
  permissions := r.permissions
  credentialVersion := r.credentialVersion
  principalRevision := r.principalRevision
  recordSecurityEpoch := r.recordSecurityEpoch

def machineGrantFind (directory : List MachineGrant) (identifier : Bytes) : Option MachineGrant :=
  directory.find? fun r => r.identifier.bytes = identifier

/-- `argus_machine_service_revalidate`, true for `ESP_OK`. -/
def machineRevalidate (directory : List MachineGrant) (principal : MachinePrincipal)
    (receivingInterface : UInt8) : Bool :=
  if principal.identifier.bytes = [] then false
  else
    match machineGrantFind directory principal.identifier.bytes with
    | none => false
    | some current =>
      current.enabled ≠ 0 && current.revoked = 0 &&
        current.credentialVersion = principal.credentialVersion &&
        current.principalRevision = principal.principalRevision &&
        current.recordSecurityEpoch = principal.recordSecurityEpoch &&
        current.allowedTransports &&& machineTransportMqtt ≠ 0 &&
        current.allowedInterfaces &&& receivingInterface ≠ 0 &&
        current.permissions = principal.permissions && current.scope = principal.scope &&
        current.topicScope = principal.topicScope

/-! ## The packet -/

/-- `argus_mqtt_read_u16`. -/
def readU16 : Bytes → Option (UInt16 × Bytes)
  | high :: low :: rest => some ((high.toUInt16 <<< 8) ||| low.toUInt16, rest)
  | _ => none

/-- `argus_mqtt_read_string` into a buffer of `cap` bytes; what follows a NUL in it is not read
again. -/
def readString (packet : Bytes) (cap : Nat) : Option (Bytes × Bytes) :=
  match readU16 packet with
  | none => none
  | some (length, rest) =>
    if length.toNat > rest.length ∨ length.toNat ≥ cap then none
    else some ((rest.take length.toNat).takeWhile (· ≠ 0), rest.drop length.toNat)

structure PublishPacket where
  topic : Bytes
  payload : Bytes
  qos : UInt8
  retain : Bool
  dup : Bool
deriving DecidableEq

/-- The parsing part of `argus_mqtt_handle_publish`. -/
def parsePublish (fixedHeader : UInt8) (packet : Bytes) : Except EspErr PublishPacket :=
  let qos := (fixedHeader >>> 1) &&& 3
  if qos > 1 then .error espErrNotSupported
  else
    match readString packet mqttBrokerTopicCap with
    | none => .error espErrInvalidArg
    | some (topic, rest) =>
      match if qos > 0 then (readU16 rest).map Prod.snd else some rest with
      | none => .error espErrInvalidArg
      | some payload =>
        if payload.length ≥ mqttBrokerPayloadCap then .error espErrInvalidSize
        else .ok ⟨topic, payload, qos, fixedHeader &&& 1 ≠ 0, fixedHeader &&& 8 ≠ 0⟩

/-- `argus_mqtt_broker_client_info_t`. -/
structure ClientInfo where
  connectionId : UInt64
  clientId : Bytes
  receivingInterface : UInt8
  principal : MachinePrincipal
deriving DecidableEq

/-! ## What a client task asks -/

inductive GateCall
  /-- The locked look of the packet loop: connected, invalidated. -/
  | packetState
  /-- `argus_mqtt_client_info_if_admitted`. -/
  | infoIfAdmitted
  | revalidate (info : ClientInfo)
  | publishAuthorize (message : BrokerMessage)
  | policyCheck (message : BrokerMessage)
  /-- The retained store, if the client is admitted. -/
  | storeRetained (connectionId : UInt64) (topic payload : Bytes)
  /-- Whether the client is admitted when the subscribers are collected. -/
  | collect (connectionId : UInt64) (topic : Bytes)
  /-- `broker_message_cb`: whether the queue took the message. -/
  | onMessage (message : BrokerMessage)

abbrev GateCall.Answer : GateCall → Type
  | .packetState => Bool × Bool
  | .infoIfAdmitted => Option ClientInfo
  | .storeRetained .. => EspErr
  | .revalidate _ | .publishAuthorize _ | .policyCheck _ | .collect .. | .onMessage _ => Bool

abbrev GateProg := Prog GateCall GateCall.Answer

/-- The record is admitted, and under the connection id of the packet. -/
def recheck {α : Type} (connectionId : UInt64) (fail : α) (k : ClientInfo → GateProg α) :
    GateProg α :=
  .ask .infoIfAdmitted fun
    | none => .ret fail
    | some info => if info.connectionId ≠ connectionId then .ret fail else k info

/-- The message `argus_mqtt_handle_publish` composes. -/
def composeMessage (packet : PublishPacket) (info : ClientInfo) : BrokerMessage where
  connectionId := info.connectionId
  clientId := info.clientId
  topic := packet.topic
  payload := packet.payload
  qos := packet.qos
  retain := packet.retain
  dup := packet.dup
  policyAdmitted := true
  receivingInterface := info.receivingInterface
  principal := info.principal

/-- `argus_mqtt_handle_publish` after the policy check. -/
def acceptPublish (message : BrokerMessage) : GateProg (EspErr × Option BrokerMessage) :=
  recheck message.connectionId (espErrNotAllowed, none) fun info =>
  .ask (.revalidate info) fun ok =>
  if ¬ ok then .ret (espErrNotAllowed, none)
  else
    recheck message.connectionId (espErrNotAllowed, none) fun _ =>
    let collect : GateProg (EspErr × Option BrokerMessage) :=
      .ask (.collect message.connectionId message.topic) fun admitted =>
      if ¬ admitted then .ret (espErrNotAllowed, none) else .ret (espOk, some message)
    if message.retain then
      .ask (.storeRetained message.connectionId message.topic message.payload) fun err =>
      if err ≠ espOk then .ret (err, none) else collect
    else collect

/-- `argus_mqtt_handle_publish`, with the message for the callback. -/
def handlePublish (packet : PublishPacket) : GateProg (EspErr × Option BrokerMessage) :=
  .ask .infoIfAdmitted fun
    | none => .ret (espErrNotAllowed, none)
    | some info =>
      let message := composeMessage packet info
      .ask (.revalidate info) fun ok =>
      if ¬ ok then .ret (espErrNotAllowed, none)
      else
        recheck message.connectionId (espErrNotAllowed, none) fun _ =>
        .ask (.publishAuthorize message) fun ok =>
        if ¬ ok then .ret (espOk, none)
        else
          recheck message.connectionId (espErrNotAllowed, none) fun _ =>
          .ask (.policyCheck message) fun ok =>
          if ¬ ok then .ret (espOk, some { message with policyAdmitted := false })
          else acceptPublish message

/-- The packet loop with a PUBLISH, from its checks to the callback. -/
def servePublish (fixedHeader : UInt8) (packet : Bytes) : GateProg EspErr :=
  .ask .packetState fun (connected, invalidated) =>
  if invalidated then .ret espErrNotAllowed
  else if ¬ connected then .ret espErrInvalidState
  else
    .ask .infoIfAdmitted fun
    | none => .ret espErrNotAllowed
    | some info =>
      .ask (.revalidate info) fun ok =>
      if ¬ ok then .ret espErrNotAllowed
      else
        match parsePublish fixedHeader packet with
        | .error err => .ret err
        | .ok publish =>
          handlePublish publish >>= fun
            | (err, none) => .ret err
            | (err, some message) =>
              recheck message.connectionId err fun _ =>
              .ask (.onMessage message) fun _ => .ret err

/-! ## The node -/

/-- The broker with the principals of its records, the packets its tasks are at, and the
runtime. -/
structure Gate where
  broker : Broker
  directory : List MachineGrant
  /-- What authentication has read for a record. -/
  found : Fin mqttMaxConnections → Option MachineGrant
  principals : Fin mqttMaxConnections → MachinePrincipal
  handling : Fin mqttMaxConnections → Option (GateProg EspErr)
  /-- Connections whose end the runtime has not been told yet. -/
  departed : List UInt64
  topics : MqttTopics
  queue : List BrokerMessage
  /-- The message the runtime task has taken. -/
  current : Option BrokerMessage
  runtime : Runtime

/-- What `handle_message` reads of other modules. -/
structure HandlerContext where
  nowMs : UInt64
  authorityProfile : UInt8
  coreWindowOpen : Bool
  machineRunning : Bool
  maxRpmMilli : Nat
  result : ResultContext

inductive GateAct
  /-- A step of the records; the directory commits in `commit`. -/
  | records (act : BrokerAct)
  | commit (directory : List MachineGrant)
  /-- A client task has received a PUBLISH. -/
  | packet (i : Fin mqttMaxConnections) (fixedHeader : UInt8) (packet : Bytes)
  /-- The next call of a client task; `err` is what a store answers or a full queue. -/
  | call (i : Fin mqttMaxConnections) (err : EspErr)
  | finish (i : Fin mqttMaxConnections)
  | take
  | handle (ctx : HandlerContext)
  /-- The runtime task goes on with a command. -/
  | work (act : RuntimeAct)
  | tick (nowMs : UInt64)
  | disconnected (nowMs : UInt64)
  | prepareStart (randomHigh randomLow : UInt32) (clientId unitId : Vector UInt8 33)

namespace Gate

def infoIfAdmitted (s : Gate) (i : Fin mqttMaxConnections) : Option ClientInfo :=
  let c := s.broker.clients i
  if c.admitted c.connectionId then
    some ⟨c.connectionId, c.clientId, c.receivingInterface, s.principals i⟩
  else none

def answer (s : Gate) (i : Fin mqttMaxConnections) (err : EspErr) : (q : GateCall) → q.Answer
  | .packetState =>
    ((s.broker.clients i).connected,
      !(s.broker.clients i).inUse || (s.broker.clients i).securityInvalidated)
  | .infoIfAdmitted => s.infoIfAdmitted i
  | .revalidate info => machineRevalidate s.directory info.principal info.receivingInterface
  | .publishAuthorize message => publishAllowed s.topics message.principal message.topic
  | .policyCheck message => externalPublishAllowed s.topics message
  | .storeRetained connectionId _ _ =>
    if (s.broker.clients i).admitted connectionId then err else espErrNotAllowed
  | .collect connectionId _ => (s.broker.clients i).admitted connectionId
  | .onMessage _ => err = espOk && s.queue.length < mqttRuntimeQueueDepth

/-- The queue after a call. -/
def queueAfter (s : Gate) : (q : GateCall) → q.Answer → List BrokerMessage
  | .onMessage message, true => s.queue ++ [message]
  | _, _ => s.queue

/-- What authentication has read, after a step of the records. -/
def foundAfter (s : Gate) (b : Broker) (i : Fin mqttMaxConnections) : Option MachineGrant :=
  match s.broker.task i, b.task i with
  | .authenticating .., .verifying request _ _ _ => machineGrantFind s.directory request.username
  | _, _ => s.found i

/-- The principals after a step of the records: a record that is bound gets the one read. -/
def principalsAfter (s : Gate) (b : Broker) (i : Fin mqttMaxConnections) : MachinePrincipal :=
  match s.found i with
  | some record =>
    if (b.clients i).connected ∧ ¬ (s.broker.clients i).connected then record.principal
    else s.principals i
  | none => s.principals i

def departedAfter (s : Gate) : BrokerAct → List UInt64
  | .close i =>
    if (s.broker.clients i).connected then s.departed ++ [(s.broker.clients i).connectionId]
    else s.departed
  | _ => s.departed

/-- A client task in a packet does not take its next step, and the directory is not the
broker's to write. -/
def allows (s : Gate) : BrokerAct → Bool
  | .connect i _ | .leave i | .close i => (s.handling i).isNone
  | .commit _ => false
  | _ => true

/-- `handle_message`: what the runtime task does with a message. -/
def handleMessage (s : Gate) (ctx : HandlerContext) (m : BrokerMessage) : Option RuntimeAct :=
  let authority (release : Bool) : Option RuntimeAct :=
    if ¬ m.policyAdmitted ∨ m.principal.permissions &&& permissionRequestAuthority = 0 then none
    else
      some (.session ⟨ctx.nowMs, .authority m.toMessage release ctx.authorityProfile
        ctx.coreWindowOpen ctx.machineRunning⟩)
  match s.topics.classify m.topic with
  | .heartbeat => some (.session ⟨ctx.nowMs, .heartbeat m.toMessage⟩)
  | .requestAuthority => authority false
  | .releaseAuthority => authority true
  | .command action => some (.receive m.toMessage action ctx.maxRpmMilli ctx.result)
  | .none => none

/-- The runtime after a step of its task, which is done with the message once it is idle. -/
def taskDone (s : Gate) (w : Runtime) : Gate :=
  { s with
    runtime := w
    current := if w.task = .idle then none else s.current }

variable (sha256 : Bytes → Option Digest)

def next (s : Gate) : GateAct → Option Gate
  | .records act =>
    if s.allows act then
      (s.broker.next act).map fun b =>
        { s with
          broker := b
          found := s.foundAfter b
          principals := s.principalsAfter b
          departed := s.departedAfter act }
    else none
  | .commit directory =>
    some { s with
      directory := directory
      broker := { s.broker with directory := directory.map MachineGrant.toMachineEntry } }
  | .packet i fixedHeader packet =>
    if s.broker.task i = .serving ∧ (s.handling i).isNone then
      some { s with handling := Function.update s.handling i (some (servePublish fixedHeader packet)) }
    else none
  | .call i err =>
    match s.handling i with
    | some (.ask q k) =>
      some { s with
        handling := Function.update s.handling i (some (k (s.answer i err q)))
        queue := s.queueAfter q (s.answer i err q) }
    | _ => none
  | .finish i =>
    match s.handling i with
    | some (.ret err) =>
      some { s with
        handling := Function.update s.handling i none
        broker := if err = espOk then s.broker else s.broker.goto i .leaving }
    | _ => none
  | .take =>
    match s.current, s.queue with
    | none, m :: rest => some { s with current := some m, queue := rest }
    | _, _ => none
  | .handle ctx =>
    match s.current, s.runtime.task with
    | some m, .idle =>
      match s.handleMessage ctx m with
      | none => some { s with current := none }
      | some act => (s.runtime.next sha256 act).map fun r => s.taskDone r.2
    | _, _ => none
  | .work act =>
    match act with
    | .snapshot .. | .checkAuthority .. | .dispatch .. | .commit =>
      (s.runtime.next sha256 act).map fun r => s.taskDone r.2
    | _ => none
  | .tick nowMs =>
    (s.runtime.next sha256 (.session ⟨nowMs, .tick⟩)).map fun r => { s with runtime := r.2 }
  | .disconnected nowMs =>
    match s.departed with
    | connectionId :: rest =>
      (s.runtime.next sha256 (.session ⟨nowMs, .disconnect connectionId⟩)).map fun r =>
        { s with runtime := r.2, departed := rest }
    | [] => none
  | .prepareStart randomHigh randomLow clientId unitId =>
    match topicsBuild clientId unitId with
    | .error _ => none
    | .ok topics =>
      (s.runtime.next sha256 (.prepareStart randomHigh randomLow)).map fun r =>
        { s with runtime := r.2, topics := topics, queue := [] }

/-- After the first start of the broker and the runtime. -/
def start (nextConnectionId : UInt64) (directory : List MachineGrant) (session : Bytes)
    (topics : MqttTopics) : Gate where
  broker := .start nextConnectionId (directory.map MachineGrant.toMachineEntry)
  directory := directory
  found := fun _ => none
  principals := fun _ => ⟨⟨.empty, 0⟩, [], [], 0, 0, 0, 0⟩
  handling := fun _ => none
  departed := []
  topics := topics
  queue := []
  current := none
  runtime := .start session

end Gate

def gateStep (sha256 : Bytes → Option Digest) (s : Gate) (act : GateAct) (s' : Gate) : Prop :=
  s.next sha256 act = some s'

abbrev GateMove := Move Gate GateAct

/-- The moves on a list of acts, up to the first that has to wait. -/
def gateTrace (sha256 : Bytes → Option Digest) : Gate → List GateAct → List GateMove :=
  traceWhile fun s act => (s.next sha256 act).map fun s' => (act, s')

theorem isRun_gateTrace (sha256 : Bytes → Option Digest) (s : Gate) (acts : List GateAct) :
    IsRun (gateStep sha256) s (gateTrace sha256 s acts) := by
  refine isRun_traceWhile (fun s act ev s' h => ?_) s acts
  obtain ⟨t, hnext, heq⟩ := Option.map_eq_some_iff.mp h
  cases heq
  exact hnext

end Argus
