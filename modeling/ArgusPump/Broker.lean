import ArgusPump.MqttInvalidation
import ArgusPump.MqttRuntime
import ArgusPump.Lib.Slots
import Mathlib.Logic.Function.Basic

/-!
# The broker's connection records

`main/argus_mqtt_broker.c`: the records, the session slots and the tasks that work on
them, cut at every use of `client_lock`.  A client task runs `argus_mqtt_handle_connect`
with `argus_machine_service_authenticate` inside, the accept loop hands records out, and
an administrator commits directory changes, fences and disconnects machines.

    what a step does to the records, by cases                        (brokerStep_move)

The throttle and the derivation of the password are answers in the events.  Left out:
subscriptions and publications, keep-alive times, counters kept for diagnosis, start and
stop of the broker.
-/

namespace Argus

open Interact

abbrev mqttMaxClients : Nat := 3
abbrev mqttMaxPreconnect : Nat := 3
def mqttMaxPreconnectUnproven : Nat := 2
def mqttMaxPreconnectPerSource : Nat := 1
abbrev mqttMaxConnections : Nat := mqttMaxClients + mqttMaxPreconnect

instance : NeZero mqttMaxConnections := ⟨by decide⟩

/-! ## Authentication -/

/-- The fields of `argus_security_machine_record_t` that authentication reads. -/
structure MachineEntry where
  identifier : Identifier
  clientType : UInt8
  enabled : UInt8
  revoked : UInt8
  allowedTransports : UInt8
  allowedInterfaces : UInt8
deriving DecidableEq

def machineDirectoryFind (directory : List MachineEntry) (identifier : Bytes) :
    Option MachineEntry :=
  directory.find? fun record => record.identifier.bytes = identifier

def principalFromRecord (record : MachineEntry) : Principal :=
  ⟨record.identifier, record.clientType⟩

/-- `argus_mqtt_connect_request_t`. -/
structure ConnectRequest where
  clientId : Bytes
  username : Bytes
  password : Bytes
deriving DecidableEq

def machineSecretLength : Nat := 43
def machineTransportMqtt : UInt8 := 2
def machineInterfaceSoftap : UInt8 := 1
def machineInterfaceSta : UInt8 := 2

/-- The checks of a request before the directory is read. -/
def authenticateRequest (request : ConnectRequest) (receivingInterface : UInt8) : Bool :=
  0 < request.username.length && request.username.length ≤ 36 &&
    request.password.length = machineSecretLength &&
    (receivingInterface = machineInterfaceSoftap || receivingInterface = machineInterfaceSta) &&
    !request.username.contains 0 && !request.password.contains 0 &&
    request.clientId = request.username

/-- The checks of what the directory had; `verified` tells that the password matches. -/
def authenticateRecord (found : Option MachineEntry) (verified : Bool)
    (receivingInterface : UInt8) : Option Principal :=
  match found with
  | none => none
  | some record =>
    if ¬ verified ∨ record.enabled = 0 ∨ record.revoked ≠ 0 then none
    else if record.allowedTransports &&& machineTransportMqtt = 0 then none
    else if record.allowedInterfaces &&& receivingInterface = 0 then none
    else some (principalFromRecord record)

/-! ## Records and tasks -/

/-- `argus_mqtt_client_t`. -/
structure MqttClient where
  inUse : Bool
  connected : Bool
  securityInvalidated : Bool
  shutdownClaimed : Bool
  sock : Int
  connectionId : UInt64
  peerKey : UInt32
  receivingInterface : UInt8
  clientId : Bytes
  principal : Principal
  sessionSlot : Option (Fin mqttMaxClients)
  /-- Not in the source: whether the source address was proven when the socket came. -/
  sourceProven : Bool
deriving DecidableEq

def MqttClient.zero : MqttClient :=
  ⟨false, false, false, false, 0, 0, 0, 0, [], ⟨.empty, 0⟩, none, false⟩

def MqttClient.pending (c : MqttClient) : Bool := c.inUse && !c.connected

def MqttClient.authenticated (c : MqttClient) : Bool := c.inUse && c.connected

/-- Where the task of a record is. -/
inductive ClientPhase
  | none
  /-- The record is handed out, `xTaskCreate` has not answered yet. -/
  | created
  /-- In the packet loop. -/
  | serving
  /-- With a CONNECT, the generation captured. -/
  | authenticating (request : ConnectRequest) (expectedConnectionId generation : UInt64)
  /-- The directory has been read. -/
  | verifying (request : ConnectRequest) (expectedConnectionId generation : UInt64)
      (found : Option MachineEntry)
  /-- Bound, CONNACK under way. -/
  | connacking (expectedConnectionId : UInt64)
  | leaving
deriving DecidableEq

structure DisconnectTarget where
  slot : Fin mqttMaxConnections
  connectionId : UInt64
  socketFd : Int
deriving DecidableEq

structure Broker where
  clients : Fin mqttMaxConnections → MqttClient
  sessions : Fin mqttMaxClients → Bool
  nextConnectionId : UInt64
  invalidations : InvalidationJournal
  task : Fin mqttMaxConnections → ClientPhase
  /-- The targets of disconnects under way. -/
  targets : List DisconnectTarget
  /-- The payload of the machine directory. -/
  directory : List MachineEntry

/-- After `argus_mqtt_broker_start`. -/
def Broker.start (nextConnectionId : UInt64) (directory : List MachineEntry) : Broker :=
  ⟨fun _ => .zero, fun _ => false, nextConnectionId, .init, fun _ => .none, [], directory⟩

/-! ## Admission of a socket -/

inductive PreconnectDecision
  | admitSocket | refusePool | refuseReserved | refuseSource
deriving DecidableEq

def preconnectDecide (pending pendingFromSource : Nat) (sourceProven : Bool) :
    PreconnectDecision :=
  if pending ≥ mqttMaxPreconnect then .refusePool
  else if pending ≥ mqttMaxPreconnectUnproven ∧ ¬ sourceProven then .refuseReserved
  else if pendingFromSource ≥ mqttMaxPreconnectPerSource then .refuseSource
  else .admitSocket

namespace Broker

def pendingCount (b : Broker) : Nat := Slots.count MqttClient.pending b.clients

def pendingFromSource (b : Broker) (peerKey : UInt32) : Nat :=
  Slots.count (fun c => c.pending && c.peerKey = peerKey) b.clients

def authenticatedCount (b : Broker) : Nat := Slots.count MqttClient.authenticated b.clients

/-- `sourceProven` is what `argus_machine_service_source_is_proven` answers if asked. -/
def preconnectAdmit (b : Broker) (peerKey : UInt32) (sourceProven : Bool) : PreconnectDecision :=
  preconnectDecide b.pendingCount (b.pendingFromSource peerKey)
    (b.pendingCount ≥ mqttMaxPreconnectUnproven && sourceProven)

def freeRecord (b : Broker) : Option (Fin mqttMaxConnections) :=
  Slots.firstFree MqttClient.inUse b.clients

def takeRecord (b : Broker) (i : Fin mqttMaxConnections) (sock : Int) (peerKey : UInt32)
    (receivingInterface : UInt8) (sourceProven : Bool) : Broker :=
  { b with
    clients := Function.update b.clients i { MqttClient.zero with
      inUse := true
      sock := sock
      connectionId := b.nextConnectionId + 1
      peerKey := peerKey
      receivingInterface := receivingInterface
      sourceProven := sourceProven }
    nextConnectionId := b.nextConnectionId + 1
    task := Function.update b.task i .created }

def allocClient (b : Broker) (sock : Int) (peerKey : UInt32) (receivingInterface : UInt8)
    (sourceProven : Bool) : Option (Fin mqttMaxConnections) × Broker :=
  if b.preconnectAdmit peerKey sourceProven ≠ .admitSocket then (none, b)
  else
    match b.freeRecord with
    | none => (none, b)
    | some i => (some i, b.takeRecord i sock peerKey receivingInterface sourceProven)

/-! ## CONNECT -/

def duplicateClientId (b : Broker) (requester : Fin mqttMaxConnections) (clientId : Bytes) : Bool :=
  (List.finRange mqttMaxConnections).any fun i =>
    i ≠ requester && (b.clients i).inUse && (b.clients i).connected &&
      (b.clients i).clientId = clientId

end Broker

def MqttClient.admitted (c : MqttClient) (expectedConnectionId : UInt64) : Bool :=
  c.inUse && c.connected && !c.securityInvalidated && c.connectionId = expectedConnectionId

def bindAllowed (invalidations : InvalidationJournal) (c : MqttClient)
    (expectedConnectionId : UInt64) (identifier : Bytes) (capturedGeneration : UInt64)
    (duplicateClientId : Bool) : Bool :=
  c.inUse && !c.connected && !c.securityInvalidated && c.connectionId = expectedConnectionId &&
    !duplicateClientId && !invalidations.since identifier capturedGeneration

namespace Broker

def goto (b : Broker) (i : Fin mqttMaxConnections) (phase : ClientPhase) : Broker :=
  { b with task := Function.update b.task i phase }

/-- The slot the record has or gets. -/
def sessionClaim (b : Broker) (i : Fin mqttMaxConnections) : Option (Fin mqttMaxClients) :=
  match (b.clients i).sessionSlot with
  | some k => some k
  | none => Slots.firstFree id b.sessions

def sessionRelease (b : Broker) (i : Fin mqttMaxConnections) : Fin mqttMaxClients → Bool :=
  match (b.clients i).sessionSlot with
  | some k => Function.update b.sessions k false
  | none => b.sessions

def connectClient (b : Broker) (i : Fin mqttMaxConnections) (request : ConnectRequest)
    (expectedConnectionId : UInt64) (principal : Principal) (k : Fin mqttMaxClients) : Broker :=
  { b with
    clients := Function.update b.clients i { b.clients i with
      sessionSlot := some k
      clientId := request.clientId
      principal := principal
      connected := true }
    sessions := Function.update b.sessions k true
    task := Function.update b.task i (.connacking expectedConnectionId) }

/-- The second locked part of `argus_mqtt_handle_connect`. -/
def bindClient (b : Broker) (i : Fin mqttMaxConnections) (request : ConnectRequest)
    (expectedConnectionId generation : UInt64) (principal : Principal) : Broker :=
  if bindAllowed b.invalidations (b.clients i) expectedConnectionId principal.identifier.bytes
      generation (b.duplicateClientId i request.clientId) then
    match b.sessionClaim i with
    | some k => b.connectClient i request expectedConnectionId principal k
    | none => b.goto i .leaving
  else b.goto i .leaving

/-! ## Release of a record -/

/-- The failure path of `xTaskCreate`. -/
def abandonClient (b : Broker) (i : Fin mqttMaxConnections) : Broker :=
  { b with
    clients := Function.update b.clients i { b.clients i with
      sock := -1
      inUse := false
      sessionSlot := none }
    sessions := b.sessionRelease i
    task := Function.update b.task i .none }

/-- The locked part of `argus_mqtt_close_client`. -/
def closeClient (b : Broker) (i : Fin mqttMaxConnections) : Broker :=
  { b with
    clients := Function.update b.clients i { b.clients i with
      sock := -1
      connected := false
      securityInvalidated := false
      shutdownClaimed := false
      inUse := false
      sessionSlot := none
      principal := ⟨.empty, 0⟩ }
    sessions := b.sessionRelease i
    task := Function.update b.task i .none }

end Broker

/-! ## Invalidation -/

def MqttClient.disconnectMatches (c : MqttClient) (identifier : Bytes) : Bool :=
  c.inUse && c.connected && 0 ≤ c.sock && c.principal.identifier.bytes = identifier

namespace Broker

/-- `argus_mqtt_broker_fence_machine_authentication`. -/
def fenceMachineAuthentication (b : Broker) (identifier : Bytes) : Broker :=
  let recorded := b.invalidations.record identifier
  if recorded.1 then
    { b with
      invalidations := recorded.2
      clients := fun i =>
        if (b.clients i).disconnectMatches identifier then
          { b.clients i with securityInvalidated := true }
        else b.clients i }
  else b

/-- The locked loop of `argus_mqtt_broker_disconnect_machine`: the matching records are
invalidated and those not claimed yet are claimed. -/
def claimDisconnect (b : Broker) (identifier : Bytes) : Broker :=
  { b with
    clients := fun i =>
      if (b.clients i).disconnectMatches identifier then
        { b.clients i with securityInvalidated := true, shutdownClaimed := true }
      else b.clients i
    targets := b.targets ++ (List.finRange mqttMaxConnections).filterMap fun i =>
      if (b.clients i).disconnectMatches identifier ∧ ¬ (b.clients i).shutdownClaimed then
        some ⟨i, (b.clients i).connectionId, (b.clients i).sock⟩
      else none }

def releaseDisconnectClaim (b : Broker) (target : DisconnectTarget) : Broker :=
  let c := b.clients target.slot
  { b with
    clients :=
      if c.shutdownClaimed ∧ c.inUse ∧ c.connectionId = target.connectionId ∧
          c.sock = target.socketFd then
        Function.update b.clients target.slot { c with shutdownClaimed := false }
      else b.clients
    targets := b.targets.erase target }

end Broker

/-! ## Steps -/

inductive BrokerAct
  | accept (sock : Int) (peerKey : UInt32) (receivingInterface : UInt8) (sourceProven : Bool)
  | taskCreated (i : Fin mqttMaxConnections)
  | taskFailed (i : Fin mqttMaxConnections)
  /-- A CONNECT has been parsed; `handle_connect` captures the generation. -/
  | connect (i : Fin mqttMaxConnections) (request : ConnectRequest)
  /-- Authentication reads the directory, if the throttle admits the request. -/
  | find (i : Fin mqttMaxConnections) (throttleAdmits : Bool)
  | bind (i : Fin mqttMaxConnections) (verified : Bool)
  | connack (i : Fin mqttMaxConnections) (sent : Bool)
  /-- The packet loop ends: an error, a timeout, a DISCONNECT. -/
  | leave (i : Fin mqttMaxConnections)
  | close (i : Fin mqttMaxConnections)
  /-- The machine directory commits a payload. -/
  | commit (directory : List MachineEntry)
  | fence (identifier : Bytes)
  | claim (identifier : Bytes)
  | release (target : DisconnectTarget)
deriving DecidableEq

namespace Broker

def next (b : Broker) : BrokerAct → Option Broker
  | .accept sock peerKey receivingInterface sourceProven =>
    if 0 ≤ sock then some (b.allocClient sock peerKey receivingInterface sourceProven).2 else none
  | .taskCreated i => if b.task i = .created then some (b.goto i .serving) else none
  | .taskFailed i => if b.task i = .created then some (b.abandonClient i) else none
  | .connect i request =>
    if b.task i = .serving then
      -- the packet loop has checked as much before
      if (b.clients i).pending && !(b.clients i).securityInvalidated then
        some (b.goto i (.authenticating request (b.clients i).connectionId
          b.invalidations.generation))
      else some (b.goto i .leaving)
    else none
  | .find i throttleAdmits =>
    match b.task i with
    | .authenticating request expectedConnectionId generation =>
      if authenticateRequest request (b.clients i).receivingInterface && throttleAdmits then
        some (b.goto i (.verifying request expectedConnectionId generation
          (machineDirectoryFind b.directory request.username)))
      else some (b.goto i .leaving)
    | _ => none
  | .bind i verified =>
    match b.task i with
    | .verifying request expectedConnectionId generation found =>
      match authenticateRecord found verified (b.clients i).receivingInterface with
      | some principal =>
        some (b.bindClient i request expectedConnectionId generation principal)
      | none => some (b.goto i .leaving)
    | _ => none
  | .connack i sent =>
    match b.task i with
    | .connacking expectedConnectionId =>
      if sent && (b.clients i).admitted expectedConnectionId then some (b.goto i .serving)
      else some (b.goto i .leaving)
    | _ => none
  | .leave i => if b.task i = .serving then some (b.goto i .leaving) else none
  | .close i =>
    if b.task i = .leaving ∧ ¬ (b.clients i).shutdownClaimed then some (b.closeClient i) else none
  | .commit directory => some { b with directory := directory }
  | .fence identifier => some (b.fenceMachineAuthentication identifier)
  | .claim identifier => some (b.claimDisconnect identifier)
  | .release target =>
    if target ∈ b.targets then some (b.releaseDisconnectClaim target) else none

end Broker

def brokerStep (b : Broker) (act : BrokerAct) (b' : Broker) : Prop := b.next act = some b'

/-- The moves on a list of acts, up to the first that has to wait. -/
def brokerTrace : Broker → List BrokerAct → List (Move Broker BrokerAct) :=
  traceWhile fun b act => (b.next act).map fun b' => (act, b')

theorem isRun_brokerTrace (b : Broker) (acts : List BrokerAct) :
    IsRun brokerStep b (brokerTrace b acts) := by
  refine isRun_traceWhile (fun b act ev b' h => ?_) b acts
  obtain ⟨t, hnext, heq⟩ := Option.map_eq_some_iff.mp h
  cases heq
  exact hnext

/-! ## What a step can do -/

/-- The identifier a fence records. -/
def BrokerAct.fenced : BrokerAct → Option Bytes
  | .fence identifier =>
    if InvalidationJournal.identifierValid identifier then some identifier else none
  | _ => none

/-- The phases of a task that is not with a CONNECT. -/
def ClientPhase.plain : ClientPhase → Bool
  | .none | .serving | .connacking _ | .leaving => true
  | .created | .authenticating _ _ _ | .verifying _ _ _ _ => false

/-- The steps by what they do to the records. -/
inductive BrokerMove (b : Broker) : BrokerAct → Broker → Prop
  | refuse (sock : Int) (peerKey : UInt32) (receivingInterface : UInt8) (sourceProven : Bool) :
      BrokerMove b (.accept sock peerKey receivingInterface sourceProven) b
  | alloc (sock : Int) (peerKey : UInt32) (receivingInterface : UInt8) (sourceProven : Bool)
      (i : Fin mqttMaxConnections) (hsock : 0 ≤ sock)
      (haccept : b.preconnectAdmit peerKey sourceProven = .admitSocket) (hfree : b.freeRecord = some i) :
      BrokerMove b (.accept sock peerKey receivingInterface sourceProven)
        (b.takeRecord i sock peerKey receivingInterface sourceProven)
  | goto (act : BrokerAct) (i : Fin mqttMaxConnections) (phase : ClientPhase)
      (hact : act.fenced = none) (hphase : phase.plain = true) : BrokerMove b act (b.goto i phase)
  | capture (i : Fin mqttMaxConnections) (request : ConnectRequest) (htask : b.task i = .serving) :
      BrokerMove b (.connect i request)
        (b.goto i (.authenticating request (b.clients i).connectionId b.invalidations.generation))
  | lookup (i : Fin mqttMaxConnections) (throttleAdmits : Bool) (request : ConnectRequest)
      (expectedConnectionId generation : UInt64)
      (htask : b.task i = .authenticating request expectedConnectionId generation)
      (hrequest : authenticateRequest request (b.clients i).receivingInterface = true) :
      BrokerMove b (.find i throttleAdmits)
        (b.goto i (.verifying request expectedConnectionId generation
          (machineDirectoryFind b.directory request.username)))
  | bound (i : Fin mqttMaxConnections) (verified : Bool) (request : ConnectRequest)
      (expectedConnectionId generation : UInt64) (found : Option MachineEntry)
      (principal : Principal) (k : Fin mqttMaxClients)
      (htask : b.task i = .verifying request expectedConnectionId generation found)
      (hrecord : authenticateRecord found verified (b.clients i).receivingInterface =
        some principal)
      (hallowed : bindAllowed b.invalidations (b.clients i) expectedConnectionId
        principal.identifier.bytes generation (b.duplicateClientId i request.clientId) = true)
      (hclaim : b.sessionClaim i = some k) :
      BrokerMove b (.bind i verified) (b.connectClient i request expectedConnectionId principal k)
  | abandon (i : Fin mqttMaxConnections) (htask : b.task i = .created) :
      BrokerMove b (.taskFailed i) (b.abandonClient i)
  | close (i : Fin mqttMaxConnections) : BrokerMove b (.close i) (b.closeClient i)
  | commit (directory : List MachineEntry) :
      BrokerMove b (.commit directory) { b with directory := directory }
  | fence (identifier : Bytes) :
      BrokerMove b (.fence identifier) (b.fenceMachineAuthentication identifier)
  | claim (identifier : Bytes) : BrokerMove b (.claim identifier) (b.claimDisconnect identifier)
  | release (target : DisconnectTarget) :
      BrokerMove b (.release target) (b.releaseDisconnectClaim target)

/-! One lemma for each act that waits for something. -/

section Inversion

variable {b b' : Broker} {i : Fin mqttMaxConnections}

theorem accept_next {sock : Int} {peerKey : UInt32} {receivingInterface : UInt8} {sourceProven : Bool}
    (h : brokerStep b (.accept sock peerKey receivingInterface sourceProven) b') :
    ((b.allocClient sock peerKey receivingInterface sourceProven).1 = none ∧ b' = b) ∨
      ∃ i, (b.allocClient sock peerKey receivingInterface sourceProven).1 = some i ∧ 0 ≤ sock ∧
        b.preconnectAdmit peerKey sourceProven = .admitSocket ∧ b.freeRecord = some i ∧
        b' = b.takeRecord i sock peerKey receivingInterface sourceProven := by
  unfold brokerStep Broker.next at h
  dsimp only at h
  split at h
  · next hsock =>
    cases h
    unfold Broker.allocClient
    split
    · exact .inl ⟨rfl, rfl⟩
    · next haccept =>
      split
      · exact .inl ⟨rfl, rfl⟩
      · next i hfree => exact .inr ⟨i, rfl, hsock, not_not.mp haccept, hfree, rfl⟩
  · cases h

theorem taskCreated_next (h : brokerStep b (.taskCreated i) b') :
    b.task i = .created ∧ b' = b.goto i .serving := by
  unfold brokerStep Broker.next at h
  dsimp only at h
  split at h
  · next htask =>
    cases h
    exact ⟨htask, rfl⟩
  · cases h

theorem taskFailed_next (h : brokerStep b (.taskFailed i) b') :
    b.task i = .created ∧ b' = b.abandonClient i := by
  unfold brokerStep Broker.next at h
  dsimp only at h
  split at h
  · next htask =>
    cases h
    exact ⟨htask, rfl⟩
  · cases h

theorem connect_next {request : ConnectRequest} (h : brokerStep b (.connect i request) b') :
    b.task i = .serving ∧
      (b' = b.goto i (.authenticating request (b.clients i).connectionId b.invalidations.generation) ∨
        b' = b.goto i .leaving) := by
  unfold brokerStep Broker.next at h
  dsimp only at h
  split at h
  · next htask =>
    refine ⟨htask, ?_⟩
    split at h
    · cases h
      exact .inl rfl
    · cases h
      exact .inr rfl
  · cases h

theorem find_next {throttleAdmits : Bool} (h : brokerStep b (.find i throttleAdmits) b') :
    ∃ request expectedConnectionId generation,
      b.task i = .authenticating request expectedConnectionId generation ∧
      (authenticateRequest request (b.clients i).receivingInterface = true ∧
          b' = b.goto i (.verifying request expectedConnectionId generation
            (machineDirectoryFind b.directory request.username)) ∨
        b' = b.goto i .leaving) := by
  unfold brokerStep Broker.next at h
  dsimp only at h
  split at h
  · next htask =>
    refine ⟨_, _, _, htask, ?_⟩
    split at h
    · next hadmits =>
      cases h
      rw [Bool.and_eq_true] at hadmits
      exact .inl ⟨hadmits.1, rfl⟩
    · cases h
      exact .inr rfl
  · cases h

theorem bind_next {verified : Bool} (h : brokerStep b (.bind i verified) b') :
    ∃ request expectedConnectionId generation found,
      b.task i = .verifying request expectedConnectionId generation found ∧
      (b' = b.goto i .leaving ∨
        ∃ principal k,
          authenticateRecord found verified (b.clients i).receivingInterface = some principal ∧
          bindAllowed b.invalidations (b.clients i) expectedConnectionId principal.identifier.bytes
            generation (b.duplicateClientId i request.clientId) = true ∧
          b.sessionClaim i = some k ∧
          b' = b.connectClient i request expectedConnectionId principal k) := by
  unfold brokerStep Broker.next at h
  dsimp only at h
  split at h
  · next htask =>
    refine ⟨_, _, _, _, htask, ?_⟩
    split at h
    · next principal hrecord =>
      cases h
      unfold Broker.bindClient
      split
      · next hallowed =>
        split
        · next k hclaim => exact .inr ⟨principal, k, hrecord, hallowed, hclaim, rfl⟩
        · exact .inl rfl
      · exact .inl rfl
    · cases h
      exact .inl rfl
  · cases h

theorem connack_next {sent : Bool} (h : brokerStep b (.connack i sent) b') :
    ∃ expectedConnectionId, b.task i = .connacking expectedConnectionId ∧
      (b' = b.goto i .serving ∨ b' = b.goto i .leaving) := by
  unfold brokerStep Broker.next at h
  dsimp only at h
  split at h
  · next htask =>
    refine ⟨_, htask, ?_⟩
    split at h
    · cases h
      exact .inl rfl
    · cases h
      exact .inr rfl
  · cases h

theorem leave_next (h : brokerStep b (.leave i) b') : b.task i = .serving ∧ b' = b.goto i .leaving := by
  unfold brokerStep Broker.next at h
  dsimp only at h
  split at h
  · next htask =>
    cases h
    exact ⟨htask, rfl⟩
  · cases h

theorem close_next (h : brokerStep b (.close i) b') :
    b.task i = .leaving ∧ (b.clients i).shutdownClaimed = false ∧ b' = b.closeClient i := by
  unfold brokerStep Broker.next at h
  dsimp only at h
  split at h
  · next hguard =>
    cases h
    exact ⟨hguard.1, Bool.eq_false_iff.mpr hguard.2, rfl⟩
  · cases h

theorem release_next {t : DisconnectTarget} (h : brokerStep b (.release t) b') :
    t ∈ b.targets ∧ b' = b.releaseDisconnectClaim t := by
  unfold brokerStep Broker.next at h
  dsimp only at h
  split at h
  · next hmem =>
    cases h
    exact ⟨hmem, rfl⟩
  · cases h

theorem brokerStep_move {act : BrokerAct} (h : brokerStep b act b') : BrokerMove b act b' := by
  cases act with
  | accept sock peerKey receivingInterface sourceProven =>
    rcases accept_next h with ⟨-, rfl⟩ | ⟨i, -, hsock, haccept, hfree, rfl⟩
    · exact .refuse _ _ _ _
    · exact .alloc _ _ _ _ i hsock haccept hfree
  | taskCreated i =>
    obtain ⟨-, rfl⟩ := taskCreated_next h
    exact .goto _ i .serving rfl rfl
  | taskFailed i =>
    obtain ⟨htask, rfl⟩ := taskFailed_next h
    exact .abandon i htask
  | connect i request =>
    obtain ⟨htask, rfl | rfl⟩ := connect_next h
    · exact .capture i request htask
    · exact .goto _ i .leaving rfl rfl
  | find i throttleAdmits =>
    obtain ⟨request, cid, generation, htask, ⟨hrequest, rfl⟩ | rfl⟩ := find_next h
    · exact .lookup i throttleAdmits request cid generation htask hrequest
    · exact .goto _ i .leaving rfl rfl
  | bind i verified =>
    obtain ⟨request, cid, generation, found, htask, rfl | ⟨principal, k, hrecord, hallowed, hclaim, rfl⟩⟩ :=
      bind_next h
    · exact .goto _ i .leaving rfl rfl
    · exact .bound i verified request cid generation found principal k htask hrecord hallowed hclaim
  | connack i sent =>
    obtain ⟨cid, -, rfl | rfl⟩ := connack_next h
    · exact .goto _ i .serving rfl rfl
    · exact .goto _ i .leaving rfl rfl
  | leave i =>
    obtain ⟨-, rfl⟩ := leave_next h
    exact .goto _ i .leaving rfl rfl
  | close i =>
    obtain ⟨-, -, rfl⟩ := close_next h
    exact .close i
  | commit directory =>
    cases h
    exact .commit directory
  | fence identifier =>
    cases h
    exact .fence identifier
  | claim identifier =>
    cases h
    exact .claim identifier
  | release target =>
    obtain ⟨-, rfl⟩ := release_next h
    exact .release target

end Inversion

end Argus
