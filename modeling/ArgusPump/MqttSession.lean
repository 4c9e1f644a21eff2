import ArgusPump.MqttDecode
import ArgusPump.StateCore
import ArgusPump.NvsConfig

/-!
# The MQTT session core

`argus_mqtt_session_core_t` and the operations of `main/argus_mqtt_contract.c` that
write it: explicit requests, release, heartbeats, the expiry tick, disconnects and the
command sequence.  Times are `uint64_t` milliseconds, and `now - last_heartbeat_ms`
wraps as in C.

Left out: NULL arguments (every caller passes the identifier array of a principal).
-/

namespace Argus

def mqttHeartbeatTimeoutMs : UInt64 := 6000

def authorityProfileArguscorePreferred : UInt8 := 1

/-! ## Data -/

/-- The string in a `char identifier[ARGUS_SECURITY_ID_MAX + 1]`. -/
structure Identifier where
  bytes : Bytes
  bounded : bytes.length ≤ 36
  noNul : 0 ∉ bytes
deriving DecidableEq

def Identifier.empty : Identifier := ⟨[], by decide, by decide⟩

/-- The id of the panel. -/
def panelId : Identifier := ⟨txt "hmi-01", by decide, by decide⟩

theorem Identifier.ext {i j : Identifier} (h : i.bytes = j.bytes) : i = j := by
  cases i
  cases j
  congr

/-- `argus_mqtt_link_state_t`. -/
inductive LinkState
  | offline | online | stale
deriving DecidableEq, Repr

/-- `argus_machine_client_type_t`, the types the arbitration names. -/
def machineClientHmi : UInt8 := 1
def machineClientServiceTool : UInt8 := 3
def machineClientArgusCommand : UInt8 := 5

/-- `argus_mqtt_session_core_t`. -/
structure SessionCore where
  session : Bytes
  link : LinkState
  leaseMachineId : Identifier
  leaseClientType : UInt8
  leaseConnectionId : UInt64
  authorityEpoch : UInt32
  heartbeatConnectionId : UInt64
  heartbeatCounter : UInt32
  lastHeartbeatMs : UInt64
  hasSequence : Bool
  lastSequence : UInt32
  cachedAction : Option MqttAction
  cachedCommandId : Bytes
  cachedPayload : Bytes
  cachedResult : Bytes
deriving DecidableEq

/-- `argus_mqtt_authority_result_t`. -/
inductive AuthorityResult
  | granted | alreadyHeld | deniedHeld | deniedProfile | deniedInvalid
  | transferUnsupportedRunning | transferEpochRequired | deniedWindowOpen
deriving DecidableEq, Repr

/-- `argus_mqtt_sequence_result_t`. -/
inductive SequenceResult
  | first | newer | duplicate | conflict | stale
deriving DecidableEq, Repr

def sessionIsNewer (candidate reference : UInt32) : Bool :=
  candidate - reference ≠ 0 && candidate - reference < 0x80000000

/-- Does the commissioned profile let this client type hold ordinary authority? -/
def profilePermits (authorityProfile clientType : UInt8) (coreWindowOpen : Bool) : Bool :=
  if authorityProfile = authorityProfileStandaloneHmi then
    clientType = machineClientHmi || clientType = machineClientServiceTool
  else if clientType = machineClientArgusCommand then true
  else if clientType = machineClientHmi ∨ clientType = machineClientServiceTool then
    !coreWindowOpen
  else false

def mayPreempt (requesterType holderType : UInt8) : Bool :=
  requesterType = machineClientArgusCommand &&
    (holderType = machineClientHmi || holderType = machineClientServiceTool)

namespace SessionCore

def init (session : Bytes) : SessionCore where
  session := session.take mqttSessionHexLen
  link := .offline
  leaseMachineId := .empty
  leaseClientType := 0
  leaseConnectionId := 0
  authorityEpoch := 0
  heartbeatConnectionId := 0
  heartbeatCounter := 0
  lastHeartbeatMs := 0
  hasSequence := false
  lastSequence := 0
  cachedAction := none
  cachedCommandId := []
  cachedPayload := []
  cachedResult := []

/-! ## The lease -/

def leaseHeldBy (core : SessionCore) (machineId : Identifier) : Bool :=
  machineId.bytes ≠ [] && core.leaseMachineId.bytes ≠ [] &&
    core.leaseMachineId.bytes = machineId.bytes

/-- The identifier has an array of the field's own size: `snprintf` copies all of it. -/
def leaseRecordHolder (core : SessionCore) (machineId : Identifier) (clientType : UInt8) :
    SessionCore :=
  if machineId.bytes ≠ [] then
    { core with leaseMachineId := machineId, leaseClientType := clientType }
  else { core with leaseMachineId := .empty, leaseClientType := 0 }

/-- 0 means "never owned", so the counter wraps to 1. -/
def advanceEpoch (core : SessionCore) : SessionCore :=
  { core with authorityEpoch :=
      if core.authorityEpoch + 1 = 0 then 1 else core.authorityEpoch + 1 }

/-- The lease is past its deadline. -/
def expired (core : SessionCore) (nowMs : UInt64) : Bool :=
  nowMs - core.lastHeartbeatMs ≥ mqttHeartbeatTimeoutMs

/-- A principal holds the lease and the deadline has not passed. -/
def held (core : SessionCore) (nowMs : UInt64) : Bool :=
  core.leaseMachineId.bytes ≠ [] && !core.expired nowMs

/-- The holder on another socket; the counter of a new connection starts afresh. -/
def rebind (core : SessionCore) (connectionId nowMs : UInt64) : SessionCore :=
  { core with
    leaseConnectionId := connectionId
    heartbeatConnectionId := connectionId
    heartbeatCounter :=
      if core.heartbeatConnectionId ≠ connectionId then 0 else core.heartbeatCounter
    lastHeartbeatMs := nowMs
    link := .online }

/-- The lease to a new holder. -/
def grant (core : SessionCore) (connectionId : UInt64) (machineId : Identifier)
    (clientType : UInt8) (nowMs : UInt64) : SessionCore :=
  advanceEpoch { core.leaseRecordHolder machineId clientType with
    leaseConnectionId := connectionId
    heartbeatConnectionId := connectionId
    heartbeatCounter := 0
    lastHeartbeatMs := nowMs
    link := .online }

def requestAuthority (core : SessionCore) (connectionId : UInt64) (machineId : Identifier)
    (clientType authorityProfile : UInt8) (coreWindowOpen : Bool) (nowMs : UInt64) :
    AuthorityResult × SessionCore :=
  if connectionId = 0 ∨ machineId.bytes = [] ∨ authorityProfile > authorityProfileMax then
    (.deniedInvalid, core)
  else if ¬ profilePermits authorityProfile clientType coreWindowOpen then
    if coreWindowOpen ∧ authorityProfile = authorityProfileArguscorePreferred ∧
        (clientType = machineClientHmi ∨ clientType = machineClientServiceTool) then
      (.deniedWindowOpen, core)
    else (.deniedProfile, core)
  else if core.held nowMs ∧ core.leaseMachineId.bytes = machineId.bytes then
    -- ours already: the epoch stays
    (.alreadyHeld, core.rebind connectionId nowMs)
  else if core.held nowMs ∧ ¬ mayPreempt clientType core.leaseClientType then (.deniedHeld, core)
  else (.granted, core.grant connectionId machineId clientType nowMs)

def requestAuthorityWithState (core : SessionCore) (connectionId : UInt64)
    (machineId : Identifier) (clientType authorityProfile : UInt8)
    (coreWindowOpen machineRunning : Bool) (suppliedEpoch : UInt32) (nowMs : UInt64) :
    AuthorityResult × SessionCore :=
  let heldByOther := core.held nowMs && !core.leaseHeldBy machineId
  let profileWouldPermit := profilePermits authorityProfile clientType coreWindowOpen
  let wouldTransfer := profileWouldPermit && heldByOther &&
    mayPreempt clientType core.leaseClientType
  if wouldTransfer ∧ suppliedEpoch = 0 then (.transferEpochRequired, core)
  else if wouldTransfer ∧ machineRunning then (.transferUnsupportedRunning, core)
  else
    core.requestAuthority connectionId machineId clientType authorityProfile coreWindowOpen nowMs

def releaseAuthority (core : SessionCore) (machineId : Identifier) : Bool × SessionCore :=
  if ¬ core.leaseHeldBy machineId then (false, core)
  else
    (true, advanceEpoch { core.leaseRecordHolder .empty 0 with
      leaseConnectionId := 0
      heartbeatConnectionId := 0
      heartbeatCounter := 0
      link := .offline })

def acceptHeartbeat (core : SessionCore) (connectionId : UInt64) (machineId : Identifier)
    (clientType : UInt8) (heartbeat : Heartbeat) (nowMs : UInt64) : EspErr × SessionCore :=
  if connectionId = 0 ∨ core.session ≠ heartbeat.session then (espErrInvalidArg, core)
  else if core.leaseConnectionId ≠ 0 ∧ core.leaseConnectionId ≠ connectionId ∧
      core.link = .online ∧ ¬ core.leaseHeldBy machineId then
    (espErrInvalidState, core)
  else if core.heartbeatConnectionId = connectionId ∧ core.heartbeatCounter ≠ 0 ∧
      ¬ sessionIsNewer heartbeat.counter core.heartbeatCounter then
    (espErrInvalidState, core)
  else
    (espOk, { core.leaseRecordHolder machineId clientType with
      leaseConnectionId := connectionId
      heartbeatConnectionId := connectionId
      heartbeatCounter := heartbeat.counter
      lastHeartbeatMs := nowMs
      link := .online })

def tick (core : SessionCore) (nowMs : UInt64) : Bool × SessionCore :=
  if ¬ (core.leaseMachineId.bytes ≠ [] ∨ core.link = .online) ∨ ¬ core.expired nowMs then
    (false, core)
  else
    (true, advanceEpoch
      ({ core with link := .stale, leaseConnectionId := 0 }.leaseRecordHolder .empty 0))

def disconnect (core : SessionCore) (connectionId : UInt64) : Bool × SessionCore :=
  if connectionId = 0 ∨
      core.leaseConnectionId ≠ connectionId ∧ core.heartbeatConnectionId ≠ connectionId then
    (false, core)
  else
    (true, { core with
      leaseConnectionId := 0
      heartbeatConnectionId := 0
      heartbeatCounter := 0
      link := .offline })

/-! ## The command sequence -/

def checkSequence (core : SessionCore) (command : MqttCommand) (payload : Bytes) :
    SequenceResult :=
  if ¬ core.hasSequence then .first
  else if command.sequence = core.lastSequence then
    if some command.action = core.cachedAction ∧ command.commandId = core.cachedCommandId ∧
        payload = core.cachedPayload then .duplicate
    else .conflict
  else if sessionIsNewer command.sequence core.lastSequence then .newer
  else .stale

def commitResult (core : SessionCore) (command : MqttCommand) (payload resultJson : Bytes) :
    SessionCore :=
  { core with
    hasSequence := true
    lastSequence := command.sequence
    cachedAction := some command.action
    cachedCommandId := command.commandId.take mqttCommandIdMax
    cachedPayload := payload.take (mqttBrokerPayloadCap - 1)
    cachedResult := resultJson.take (mqttBrokerPayloadCap - 1) }

end SessionCore

end Argus
