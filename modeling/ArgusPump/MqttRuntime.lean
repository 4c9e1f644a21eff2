import ArgusPump.MqttSession

/-!
# Admission of MQTT messages

The parts of `main/argus_mqtt_runtime.c` that act on the session core: the duplicate
cache, `argus_mqtt_authority_admit` with its result document, `handle_heartbeat`,
`argus_mqtt_command_admission_check` and `handle_command` up to the router.

`mbedtls_sha256` is a parameter, `none` where it fails.  The retained topics of the
authority are in `MqttSnapshot`.  Left out: log output, the other retained topics, and the
checks of `handle_authority_request`, which only drop messages before admission.
-/

namespace Argus

abbrev Digest := Vector UInt8 32

abbrev mqttAuthDupCacheSize : Nat := 16

/-- The fields of `argus_machine_principal_t` the handlers read. -/
structure Principal where
  identifier : Identifier
  clientType : UInt8
deriving DecidableEq

/-- The fields of `argus_mqtt_broker_message_t` the handlers read. -/
structure Message where
  connectionId : UInt64
  payload : Bytes
  qos : UInt8
  retain : Bool
  policyAdmitted : Bool
  principal : Principal
deriving DecidableEq

/-! ## The duplicate cache -/

/-- `auth_dup_entry_t`; an entry not in use is `none` in the table. -/
structure AuthDupEntry where
  ordinal : UInt32
  session : Bytes
  requestId : Bytes
  release : Bool
  payloadHash : Digest
  payloadLen : Nat
  outcome : Bytes
  reason : Bytes
  ownerKind : Bytes
  authorityEpoch : UInt32
  leaseStatus : Bytes
  localStatus : Bytes
deriving DecidableEq

/-- `s_auth_dup_cache`, `s_auth_dup_next` and `s_auth_dup_ordinal_next`. -/
structure AuthDupCache where
  entries : Vector (Option AuthDupEntry) mqttAuthDupCacheSize
  next : Fin mqttAuthDupCacheSize
  ordinalNext : UInt32

namespace AuthDupCache

def reset : AuthDupCache := ⟨.replicate _ none, 0, 0⟩

def find (cache : AuthDupCache) (session requestId : Bytes) (release : Bool) :
    Option AuthDupEntry :=
  cache.entries.toList.findSome? fun slot =>
    slot.filter fun e => e.release = release && e.session = session && e.requestId = requestId

/-- Round robin: the oldest entry is overwritten. -/
def store (cache : AuthDupCache) (entry : AuthDupEntry) : AuthDupCache where
  entries := cache.entries.set cache.next (some { entry with ordinal := cache.ordinalNext })
  next := cache.next + 1
  ordinalNext := cache.ordinalNext + 1

end AuthDupCache

/-- A failed digest is all zeros. -/
def authDupHash (sha256 : Bytes → Option Digest) (payload : Bytes) : Digest :=
  (sha256 payload).getD (.replicate 32 0)

/-! ## The result document -/

def decodeReason : DecodeError → Bytes
  | .unknownField => txt "unknown_field"
  | .duplicateField => txt "duplicate_field"
  | .missingField => txt "missing_field"
  | .invalidValue => txt "invalid_value"
  | .tooLarge => txt "payload_too_large"
  | .schemaUnsupported => txt "schema_unsupported"
  | .invalidRequestId => txt "invalid_request_id"
  | .invalidArgument | .malformed => txt "malformed_json"

def authorityResultReason : AuthorityResult → Bytes
  | .granted => txt "granted"
  | .alreadyHeld => txt "already_held"
  | .deniedHeld => txt "denied_held_by_other"
  | .deniedProfile => txt "denied_by_profile"
  | .transferUnsupportedRunning => txt "transfer_unsupported_running"
  | .deniedWindowOpen => txt "denied_window_open"
  | .transferEpochRequired => txt "stale_epoch"
  | .deniedInvalid => txt "denied_invalid"

/-- `authority_status_from_core`: the lease status and the local control status. -/
def authorityStatusFromCore (core : SessionCore) (authorityProfile : UInt8)
    (coreWindowOpen : Bool) (nowMs : UInt64) : Bytes × Bytes :=
  let owned := core.leaseMachineId.bytes ≠ []
  let leaseStatus :=
    if ¬ owned then if core.link = .stale then txt "EXPIRED" else txt "NONE"
    else if core.link ≠ .online then txt "EXPIRING"
    else if (nowMs - core.lastHeartbeatMs) * 2 ≥ mqttHeartbeatTimeoutMs then txt "EXPIRING"
    else txt "ACTIVE"
  let localStatus :=
    if owned ∧ core.leaseClientType = machineClientHmi then txt "ACTIVE"
    else if owned then txt "UNAVAILABLE"
    else if authorityProfile = authorityProfileArguscorePreferred ∧ coreWindowOpen then
      txt "WAITING"
    else txt "AVAILABLE"
  (leaseStatus, localStatus)

def ownerKind (core : SessionCore) : Bytes :=
  if core.leaseMachineId.bytes = [] then txt "NONE"
  else if core.leaseClientType = machineClientHmi then txt "LOCAL_HMI"
  else if core.leaseClientType = machineClientArgusCommand then txt "ARGUSCORE"
  else if core.leaseClientType = machineClientServiceTool then txt "SERVICE_TOOL"
  else txt "OTHER"

def composeAuthorityResultJson (requestId session outcome reason ownerKind : Bytes)
    (authorityEpoch : UInt32) (leaseStatus localStatus : Bytes) : Bytes :=
  let out := txt "\x7b\"schema\":1,\"request_id\":\"" ++ requestId ++
    txt "\",\"session\":\"" ++ session ++ txt "\",\"outcome\":\"" ++ outcome ++
    txt "\",\"reason\":\"" ++ reason ++ txt "\",\"control_owner\":\"" ++ ownerKind ++
    txt "\",\"authority_epoch\":" ++ txt (toString authorityEpoch.toNat) ++
    txt ",\"core_lease_status\":\"" ++ leaseStatus ++
    txt "\",\"local_control_status\":\"" ++ localStatus ++ txt "\"\x7d"
  if out.length ≥ mqttBrokerPayloadCap then
    txt "\x7b\"outcome\":\"REJECTED\",\"reason\":\"result_overflow\"\x7d"
  else out

/-! ## Authority requests and releases -/

/-- `argus_mqtt_authority_admit_stage_t`. -/
inductive AdmitStage
  | retainedRefused | qosRefused | decodeRejected | sessionMismatch | duplicateReplay
  | duplicateConflict | releaseStaleEpoch | releaseNotOwner | releaseAccepted
  | requestStaleEpoch | requestEvaluated
deriving DecidableEq, Repr

/-- `argus_mqtt_authority_outcome_t`; `= {0}` makes the unset `request_result` `granted`. -/
structure AuthorityOutcome where
  stage : AdmitStage
  decode : Option DecodeError := none
  requestResult : AuthorityResult := .granted
  published : Bool := false
  resultJson : Bytes := []
  stateChanged : Bool := false
  linkOnline : Bool := false
deriving DecidableEq

/-- The session core and the duplicate cache, which one mutex guards. -/
structure Session where
  core : SessionCore
  dup : AuthDupCache

/-- The context only the runtime knows. -/
structure AdmitContext where
  authorityProfile : UInt8
  coreWindowOpen : Bool
  machineRunning : Bool
  nowMs : UInt64

/-- `build_authority_result_json`, an empty request id where nothing was decoded. -/
def authorityResultJson (core : SessionCore) (ctx : AdmitContext) (requestId outcome reason : Bytes) :
    Bytes :=
  let status := authorityStatusFromCore core ctx.authorityProfile ctx.coreWindowOpen ctx.nowMs
  composeAuthorityResultJson requestId core.session outcome reason (ownerKind core)
    core.authorityEpoch status.1 status.2

/-- `emit_authority_result` with `cache` set: the record a redelivery replays. -/
def AuthDupCache.record (sha256 : Bytes → Option Digest) (cache : AuthDupCache)
    (core : SessionCore) (ctx : AdmitContext) (req : AuthorityRequest) (message : Message)
    (release : Bool) (outcome reason : Bytes) : AuthDupCache :=
  let status := authorityStatusFromCore core ctx.authorityProfile ctx.coreWindowOpen ctx.nowMs
  cache.store {
    ordinal := 0
    session := req.session
    requestId := req.requestId
    release := release
    payloadHash := authDupHash sha256 message.payload
    payloadLen := message.payload.length
    outcome := outcome
    reason := reason
    ownerKind := ownerKind core
    authorityEpoch := core.authorityEpoch
    leaseStatus := status.1
    localStatus := status.2 }

/-- `auth_dup_replay`. -/
def AuthDupEntry.replay (e : AuthDupEntry) : Bytes :=
  composeAuthorityResultJson e.requestId e.session e.outcome e.reason e.ownerKind
    e.authorityEpoch e.leaseStatus e.localStatus

def outcomeText (accepted : Bool) : Bytes := if accepted then txt "ACCEPTED" else txt "REJECTED"

/-- The arbitration of a request or release that is neither malformed, nor of another
session, nor a duplicate. -/
def arbitrate (core : SessionCore) (message : Message) (release : Bool) (ctx : AdmitContext)
    (req : AuthorityRequest) : AuthorityOutcome × Bytes × Bytes × SessionCore :=
  if release then
    if req.authorityEpoch ≠ core.authorityEpoch then
      ({ stage := .releaseStaleEpoch }, outcomeText false, txt "stale_epoch", core)
    else
      let r := core.releaseAuthority message.principal.identifier
      ({ stage := if r.1 then .releaseAccepted else .releaseNotOwner, stateChanged := r.1 },
        outcomeText r.1, if r.1 then txt "released" else txt "not_owner", r.2)
  else if req.authorityEpoch ≠ 0 ∧ req.authorityEpoch ≠ core.authorityEpoch then
    ({ stage := .requestStaleEpoch }, outcomeText false, txt "stale_epoch", core)
  else
    let r := core.requestAuthorityWithState message.connectionId message.principal.identifier
      message.principal.clientType ctx.authorityProfile ctx.coreWindowOpen ctx.machineRunning
      req.authorityEpoch ctx.nowMs
    let accepted := r.1 = .granted || r.1 = .alreadyHeld
    ({ stage := .requestEvaluated, requestResult := r.1, stateChanged := accepted,
        linkOnline := true },
      outcomeText accepted, authorityResultReason r.1, r.2)

/-- `argus_mqtt_authority_admit`. -/
def authorityAdmit (sha256 : Bytes → Option Digest) (s : Session) (message : Message)
    (release : Bool) (ctx : AdmitContext) : AuthorityOutcome × Session :=
  let rejected (requestId reason : Bytes) : Bytes :=
    authorityResultJson s.core ctx requestId (txt "REJECTED") reason
  if message.retain then ({ stage := .retainedRefused }, s)
  else if message.qos ≠ 1 then
    ({ stage := .qosRefused, published := true, resultJson := rejected [] (txt "qos_1_required") },
      s)
  else
    match decodeAuthorityRequest message.payload release with
    | .error e =>
      ({ stage := .decodeRejected, decode := some e, published := true,
         resultJson := rejected [] (decodeReason e) }, s)
    | .ok req =>
      if req.session ≠ s.core.session then
        -- not cached: the lookup could never find it
        ({ stage := .sessionMismatch, published := true,
           resultJson := rejected req.requestId (txt "session_mismatch") }, s)
      else
        match s.dup.find req.session req.requestId release with
        | some existing =>
          if existing.payloadLen = message.payload.length ∧
              existing.payloadHash = authDupHash sha256 message.payload then
            ({ stage := .duplicateReplay, published := true, resultJson := existing.replay }, s)
          else
            ({ stage := .duplicateConflict, published := true,
               resultJson := rejected req.requestId (txt "duplicate_conflict") }, s)
        | none =>
          let (out, outcome, reason, core) := arbitrate s.core message release ctx req
          ({ out with published := true
                      resultJson := authorityResultJson core ctx req.requestId outcome reason },
            { core := core
              dup := s.dup.record sha256 core ctx req message release outcome reason })

/-! ## Heartbeats and commands -/

/-- What `handle_heartbeat` did with a message. -/
inductive HeartbeatOutcome
  | dropped
  | notHolder
  | handled (err : EspErr)
deriving DecidableEq

/-- `handle_heartbeat`: a heartbeat renews a lease, it never acquires one. -/
def handleHeartbeat (core : SessionCore) (message : Message) (nowMs : UInt64) :
    HeartbeatOutcome × SessionCore :=
  if ¬ message.policyAdmitted then (.dropped, core)
  else
    match decodeHeartbeat message.payload with
    | .error _ => (.dropped, core)
    | .ok heartbeat =>
      if core.leaseMachineId.bytes ≠ [] ∧
          core.leaseMachineId.bytes = message.principal.identifier.bytes then
        let r := core.acceptHeartbeat message.connectionId message.principal.identifier
          message.principal.clientType heartbeat nowMs
        (.handled r.1, r.2)
      else (.notHolder, core)

/-- `argus_mqtt_command_admission_t`. -/
inductive CommandAdmission
  | ok | sessionMismatch | notHolder | staleEpoch
deriving DecidableEq, Repr

/-- `argus_mqtt_command_admission_check`. -/
def commandAdmissionCheck (core : SessionCore) (principalIdentifier : Identifier)
    (connectionId : UInt64) (command : MqttCommand) : CommandAdmission :=
  if command.session ≠ core.session then .sessionMismatch
  else if core.link ≠ .online ∨ core.leaseMachineId.bytes = [] ∨
      core.leaseMachineId.bytes ≠ principalIdentifier.bytes ∨
      core.leaseConnectionId ≠ connectionId then .notHolder
  else if command.authorityEpoch ≠ core.authorityEpoch then .staleEpoch
  else .ok

/-- What `handle_command` did with a message. -/
inductive CommandOutcome
  | decodeRejected (e : DecodeError)
  | rejected (reason : Bytes)
  | duplicate (cachedResult : Bytes)
  | committed
deriving DecidableEq

/-- `handle_command`.  What the router makes of an admitted command is not part of the
session: `routed` is the reason of a rejection before dispatch or the result document. -/
def handleCommand (core : SessionCore) (message : Message) (action : MqttAction)
    (maxRpmMilli : Nat) (routed : Except Bytes Bytes) : CommandOutcome × SessionCore :=
  match decodeCommand message.payload action maxRpmMilli with
  | .error e => (.decodeRejected e, core)
  | .ok command =>
    if ¬ message.policyAdmitted then
      (.rejected (if message.retain then txt "retained_forbidden" else txt "topic_forbidden"), core)
    else if message.qos ≠ 1 then (.rejected (txt "qos_1_required"), core)
    else
      match commandAdmissionCheck core message.principal.identifier message.connectionId command with
      | .sessionMismatch => (.rejected (txt "session_mismatch"), core)
      | .notHolder => (.rejected (txt "not_authority_holder"), core)
      | .staleEpoch => (.rejected (txt "stale_epoch"), core)
      | .ok =>
        match core.checkSequence command message.payload with
        | .duplicate => (.duplicate core.cachedResult, core)
        | .conflict => (.rejected (txt "sequence_conflict"), core)
        | .stale => (.rejected (txt "stale_sequence"), core)
        | .first | .newer =>
          match routed with
          | .error reason => (.rejected reason, core)
          | .ok result => (.committed, core.commitResult command message.payload result)

end Argus
