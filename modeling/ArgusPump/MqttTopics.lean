import ArgusPump.MqttRuntime
import ArgusPump.SecurityStore
import ArgusPump.Lib.TopicFilter

/-!
# The topics of the contract

`argus_mqtt_topics_build` and `argus_mqtt_topics_classify` of `main/argus_mqtt_contract.c`,
with what handles a message by its topic: `argus_mqtt_topics_external_publish_allowed`, the
capabilities of `main/argus_mqtt_security.c` and the topic scopes of
`main/argus_machine_service.c`.

A C string is the list of its characters before the NUL.  Left out: NULL arguments.
-/

namespace Argus

abbrev mqttBrokerTopicCap : Nat := 160
abbrev mqttTopicRootCap : Nat := 72
abbrev securityTopicScopeMax : Nat := 96

/-- `/` -/
abbrev slash : UInt8 := 0x2F
/-- `#` -/
abbrev hashMark : UInt8 := 0x23
/-- `+` -/
abbrev plusMark : UInt8 := 0x2B

/-! ## The topics of a unit -/

/-- The fields of `argus_mqtt_topics_t` after `root`. -/
inductive TopicField
  | commandSetTarget | commandStart | commandStop | commandUnlock | commandEStop
  | commandResetEStop | commandRecover | heartbeat | commandRequestAuthority
  | commandReleaseAuthority | eventAuthorityResult | statusControlOwner | statusAuthorityEpoch
  | statusAuthorityProfile | statusLocalControl | statusCoreLeaseStatus | statusAuthorityReason
  | metadataDeviceName | metadataModel | metadataFirmwareVersion | metadataHardwareUid
  | stateOnline | stateSupervisorLink | stateMode | stateDriver | stateDirection | stateEstop
  | stateFault | statusWifi | statusMqtt | statusNetworkMode | statusAuthorityMode
  | statusAuthorityOwner | statusUptimeS | statusCommandSession | statusLastAcceptedSequence
  | statusNetworkFault | statusNetworkFaultAction | statusAuthThrottle
  | telemetryConfiguredTarget | telemetryTrajectoryTarget | telemetryApplied | telemetryGenerated
  | telemetryStepCount | telemetryFeedbackAvailable | commandResult
deriving DecidableEq

def TopicField.leaf : TopicField → Bytes
  | commandSetTarget => txt "command/pump1/set_target_rpm_milli"
  | commandStart => txt "command/pump1/start"
  | commandStop => txt "command/pump1/stop"
  | commandUnlock => txt "command/pump1/unlock"
  | commandEStop => txt "command/pump1/e_stop"
  | commandResetEStop => txt "command/pump1/reset_e_stop"
  | commandRecover => txt "command/pump1/recover"
  | heartbeat => txt "status/supervisor/heartbeat"
  | commandRequestAuthority => txt "command/core/request_authority"
  | commandReleaseAuthority => txt "command/core/release_authority"
  | eventAuthorityResult => txt "event/core/authority_result"
  | statusControlOwner => txt "status/core/control_owner"
  | statusAuthorityEpoch => txt "status/core/authority_epoch"
  | statusAuthorityProfile => txt "status/core/authority_profile"
  | statusLocalControl => txt "status/core/local_control_status"
  | statusCoreLeaseStatus => txt "status/core/core_lease_status"
  | statusAuthorityReason => txt "status/core/authority_reason"
  | metadataDeviceName => txt "metadata/core/device_name"
  | metadataModel => txt "metadata/core/model"
  | metadataFirmwareVersion => txt "metadata/core/firmware_version"
  | metadataHardwareUid => txt "metadata/core/hardware_uid"
  | stateOnline => txt "state/core/online"
  | stateSupervisorLink => txt "state/supervisor/link"
  | stateMode => txt "state/pump1/mode"
  | stateDriver => txt "state/pump1/driver"
  | stateDirection => txt "state/pump1/direction"
  | stateEstop => txt "state/pump1/estop"
  | stateFault => txt "state/pump1/fault"
  | statusWifi => txt "status/core/wifi"
  | statusMqtt => txt "status/core/mqtt"
  | statusNetworkMode => txt "status/core/network_mode"
  | statusAuthorityMode => txt "status/core/authority_mode"
  | statusAuthorityOwner => txt "status/core/authority_owner"
  | statusUptimeS => txt "status/core/uptime_s"
  | statusCommandSession => txt "status/core/command_session"
  | statusLastAcceptedSequence => txt "status/core/last_accepted_sequence"
  | statusNetworkFault => txt "status/core/network_fault"
  | statusNetworkFaultAction => txt "status/core/network_fault_action"
  | statusAuthThrottle => txt "status/core/auth_throttle"
  | telemetryConfiguredTarget => txt "telemetry/pump1/configured_target_rpm_milli"
  | telemetryTrajectoryTarget => txt "telemetry/pump1/trajectory_target_rpm_milli"
  | telemetryApplied => txt "telemetry/pump1/applied_rpm_milli"
  | telemetryGenerated => txt "telemetry/pump1/generated_rpm_milli"
  | telemetryStepCount => txt "telemetry/pump1/generated_step_count"
  | telemetryFeedbackAvailable => txt "telemetry/pump1/feedback_available"
  | commandResult => txt "event/pump1/command_result"

/-- `argus_mqtt_topics_t`. -/
structure MqttTopics where
  root : Bytes
  topic : TopicField → Bytes

/-- The order of `MAKE_TOPIC` in the source. -/
def TopicField.all : List TopicField :=
  [commandSetTarget, commandStart, commandStop, commandUnlock, commandEStop, commandResetEStop,
    commandRecover, heartbeat, commandRequestAuthority, commandReleaseAuthority,
    eventAuthorityResult, statusControlOwner, statusAuthorityEpoch, statusAuthorityProfile,
    statusLocalControl, statusCoreLeaseStatus, statusAuthorityReason, metadataDeviceName,
    metadataModel, metadataFirmwareVersion, metadataHardwareUid, stateOnline, stateSupervisorLink,
    stateMode, stateDriver, stateDirection, stateEstop, stateFault, statusWifi, statusMqtt,
    statusNetworkMode, statusAuthorityMode, statusAuthorityOwner, statusUptimeS,
    statusCommandSession, statusLastAcceptedSequence, statusNetworkFault,
    statusNetworkFaultAction, statusAuthThrottle, telemetryConfiguredTarget,
    telemetryTrajectoryTarget, telemetryApplied, telemetryGenerated, telemetryStepCount,
    telemetryFeedbackAvailable, commandResult]

def makeTopic (root leaf : Bytes) : Bytes := root ++ slash :: leaf

theorem notMem_makeTopic {root leaf : Bytes} {c : UInt8} (hroot : c ∉ root) (hslash : c ≠ slash)
    (hleaf : c ∉ leaf) : c ∉ makeTopic root leaf := by
  unfold makeTopic
  rw [List.mem_append, List.mem_cons]
  rintro (hmem | hmem | hmem)
  · exact hroot hmem
  · exact hslash hmem
  · exact hleaf hmem

/-- `root` of a unit. -/
def topicRoot (clientId unitId : Vector UInt8 33) : Bytes :=
  txt "argus/" ++ cString clientId ++ slash :: cString unitId

/-- `argus_mqtt_topics_build`. -/
def topicsBuild (clientId unitId : Vector UInt8 33) : Except EspErr MqttTopics :=
  let root := topicRoot clientId unitId
  if ¬ identityValidateClientId clientId ∨ ¬ identityValidateUnitId unitId then
    .error espErrInvalidArg
  else if root.length ≥ mqttTopicRootCap then .error espErrInvalidSize
  else if TopicField.all.any fun f => (makeTopic root f.leaf).length ≥ mqttBrokerTopicCap then
    .error espErrInvalidSize
  else .ok ⟨root, fun f => makeTopic root f.leaf⟩

theorem leaf_shape (f : TopicField) : slash ∈ f.leaf ∧ f.leaf.length < 64 := by
  cases f <;> decide +kernel

/-- The root of the longest identities has no byte to spare. -/
theorem topicRoot_length {clientId unitId : Vector UInt8 33}
    (hclient : identityValidateClientId clientId = true)
    (hunit : identityValidateUnitId unitId = true) :
    (topicRoot clientId unitId).length < mqttTopicRootCap := by
  have hlength : ∀ a : Vector UInt8 33, identityValidate 32 identityChar a = true →
      (cString a).length ≤ 32 := by
    intro a ha
    unfold identityValidate at ha
    split at ha
    · cases ha
    · next hbounds => exact Nat.le_of_not_lt fun h => hbounds (.inr h)
  have hargus : (txt "argus/").length = 6 := by decide
  have hc := hlength clientId hclient
  have hu := hlength unitId hunit
  unfold topicRoot mqttTopicRootCap
  simp only [List.length_append, List.length_cons]
  omega

theorem makeTopic_length {root : Bytes} (hroot : root.length < mqttTopicRootCap) (f : TopicField) :
    (makeTopic root f.leaf).length < mqttBrokerTopicCap := by
  have hleaf := (leaf_shape f).2
  unfold mqttTopicRootCap at hroot
  unfold mqttBrokerTopicCap makeTopic
  simp only [List.length_append, List.length_cons]
  omega

/-- The buffers hold the topics of every identity that is valid. -/
theorem topicsBuild_valid {clientId unitId : Vector UInt8 33}
    (hclient : identityValidateClientId clientId = true)
    (hunit : identityValidateUnitId unitId = true) :
    topicsBuild clientId unitId =
      .ok ⟨topicRoot clientId unitId, fun f => makeTopic (topicRoot clientId unitId) f.leaf⟩ := by
  have hroot := topicRoot_length hclient hunit
  have hfits : TopicField.all.any (fun f =>
      (makeTopic (topicRoot clientId unitId) f.leaf).length ≥ mqttBrokerTopicCap) = false := by
    rw [List.any_eq_false]
    intro f _
    rw [decide_eq_true_eq]
    exact Nat.not_le.mpr (makeTopic_length hroot f)
  unfold topicsBuild
  rw [if_neg (by rw [hclient, hunit]; simp), if_neg (Nat.not_le.mpr hroot), hfits]
  rfl

theorem notMem_cString {a : Vector UInt8 33} {c : UInt8}
    (ha : identityValidate 32 identityChar a = true) (hc : identityChar c = false) :
    c ∉ cString a := by
  intro hmem
  unfold identityValidate at ha
  split at ha
  · cases ha
  · rw [List.all_eq_true.mp ha c hmem] at hc
    cases hc

theorem topicsBuild_ok {clientId unitId : Vector UInt8 33} {topics : MqttTopics}
    (h : topicsBuild clientId unitId = .ok topics) :
    identityValidateClientId clientId = true ∧ identityValidateUnitId unitId = true ∧
      topics.root = topicRoot clientId unitId ∧
      ∀ f, topics.topic f = makeTopic topics.root f.leaf := by
  unfold topicsBuild at h
  dsimp only at h
  split at h
  · cases h
  · next hid =>
    split at h
    · cases h
    · split at h
      · cases h
      · cases h
        rw [not_or, not_not, not_not] at hid
        exact ⟨hid.1, hid.2, rfl, fun f => rfl⟩

/-! ## Actions -/

/-- `argus_mqtt_action_t`; the command actions are those `argus_mqtt_decode_command` takes. -/
inductive TopicAction
  | none
  | command (action : MqttAction)
  | heartbeat
  | requestAuthority
  | releaseAuthority
deriving DecidableEq

/-- The comparisons of `argus_mqtt_topics_classify` in their order. -/
def classifyOrder : List (TopicField × TopicAction) :=
  [(.commandSetTarget, .command .setTarget),
    (.commandStart, .command .start),
    (.commandStop, .command .stop),
    (.commandUnlock, .command .unlock),
    (.commandEStop, .command .eStop),
    (.commandResetEStop, .command .resetEStop),
    (.commandRecover, .command .recover),
    (.heartbeat, .heartbeat),
    (.commandRequestAuthority, .requestAuthority),
    (.commandReleaseAuthority, .releaseAuthority)]

/-- `argus_mqtt_topics_classify`. -/
def MqttTopics.classify (topics : MqttTopics) (topic : Bytes) : TopicAction :=
  match classifyOrder.find? fun e => topic = topics.topic e.1 with
  | some e => e.2
  | none => .none

/-- The field whose topic denotes the action. -/
def TopicAction.field : TopicAction → Option TopicField
  | .none => Option.none
  | .command .setTarget => some .commandSetTarget
  | .command .start => some .commandStart
  | .command .stop => some .commandStop
  | .command .unlock => some .commandUnlock
  | .command .eStop => some .commandEStop
  | .command .resetEStop => some .commandResetEStop
  | .command .recover => some .commandRecover
  | .heartbeat => some .heartbeat
  | .requestAuthority => some .commandRequestAuthority
  | .releaseAuthority => some .commandReleaseAuthority

/-- A topic is classified by the field it equals. -/
theorem MqttTopics.classify_field (topics : MqttTopics) {topic : Bytes} {f : TopicField}
    (h : (topics.classify topic).field = some f) : topic = topics.topic f := by
  have horder : ∀ e ∈ classifyOrder, e.2.field = some e.1 := by decide
  unfold classify at h
  split at h
  · next e hfind =>
    rw [horder e (List.mem_of_find?_eq_some hfind)] at h
    cases h
    simpa using List.find?_some hfind
  · cases h

/-- Topics that `argus_mqtt_topics_build` has built. -/
def MqttTopics.Built (topics : MqttTopics) : Prop :=
  ∃ clientId unitId, topicsBuild clientId unitId = .ok topics

/-- A topic is under one root only. -/
theorem built_eq {t u : MqttTopics} (ht : t.Built) (hu : u.Built) {f g : TopicField}
    (h : t.topic f = u.topic g) : t = u := by
  obtain ⟨c, n, hc⟩ := ht
  obtain ⟨d, m, hd⟩ := hu
  obtain ⟨hclient, hunit, -⟩ := topicsBuild_ok hc
  obtain ⟨hclient', hunit', -⟩ := topicsBuild_ok hd
  rw [topicsBuild_valid hclient hunit] at hc
  rw [topicsBuild_valid hclient' hunit'] at hd
  cases hc
  cases hd
  have hslash : identityChar slash = false := by decide
  unfold makeTopic topicRoot at h
  simp only [List.append_assoc, List.cons_append, List.append_cancel_left_eq] at h
  obtain ⟨hfirst, hrest⟩ := Interact.TopicFilter.eq_of_append_sep (notMem_cString hclient hslash)
    (notMem_cString hclient' hslash) h
  obtain ⟨hsecond, -⟩ := Interact.TopicFilter.eq_of_append_sep (notMem_cString hunit hslash)
    (notMem_cString hunit' hslash) hrest
  have hroot : topicRoot c n = topicRoot d m := by
    unfold topicRoot
    rw [hfirst, hsecond]
  rw [hroot]

/-- What a topic denotes does not depend on the unit it denotes it to. -/
theorem classify_agree {t u : MqttTopics} (ht : t.Built) (hu : u.Built) {topic : Bytes}
    (htopic : t.classify topic ≠ .none) (hutopic : u.classify topic ≠ .none) :
    t.classify topic = u.classify topic := by
  have hfield : ∀ a : TopicAction, a ≠ .none → ∃ f, a.field = some f := by
    intro a ha
    cases a with
    | none => exact absurd rfl ha
    | command action => cases action <;> exact ⟨_, rfl⟩
    | _ => exact ⟨_, rfl⟩
  obtain ⟨f, hf⟩ := hfield _ htopic
  obtain ⟨g, hg⟩ := hfield _ hutopic
  rw [built_eq ht hu ((t.classify_field hf).symm.trans (u.classify_field hg))]

/-! ## Principals and scopes -/

/-- `argus_machine_principal_t`, less what only the directory and the audit read. -/
structure MachinePrincipal extends Principal where
  scope : Bytes
  topicScope : Bytes
  permissions : PermissionSet
  credentialVersion : UInt32
  principalRevision : UInt32
  recordSecurityEpoch : UInt32
deriving DecidableEq

def boundedText (value : Bytes) (capacity : Nat) (emptyOk : Bool) : Bool :=
  value.length < capacity && (emptyOk || !value.isEmpty) && value.all isprint

/-- `argus_machine_service_topic_scope_contains`. -/
def topicScopeContains (semanticScope topic : Bytes) : Bool :=
  if ¬ boundedText semanticScope (securityTopicScopeMax + 1) false ∨ ¬ boundedText topic 160 false then
    false
  else if semanticScope = txt "*" then true
  else if ¬ semanticScope <+: topic then false
  else topic[semanticScope.length]? = none || topic[semanticScope.length]? = some slash

/-- The topic is the scope or lies below it at a `/`. -/
def Below (scope topic : Bytes) : Prop := topic = scope ∨ scope ++ [slash] <+: topic

instance (scope topic : Bytes) : Decidable (Below scope topic) :=
  inferInstanceAs (Decidable (_ ∨ _))

/-- A prefix and the `/` after it. -/
theorem eq_append_slash {p s : Bytes} (hp : p <+: s) (hs : s[p.length]? = some slash) :
    s = p ++ slash :: s.drop (p.length + 1) := by
  obtain ⟨rest, rfl⟩ := hp
  rw [List.getElem?_append_right (Nat.le_refl _), Nat.sub_self] at hs
  cases rest with
  | nil => cases hs
  | cons c rest =>
    cases hs
    rw [List.drop_append, List.drop_eq_nil_of_le (Nat.le_succ _)]
    simp

theorem topicScopeContains_below {semanticScope topic : Bytes}
    (h : topicScopeContains semanticScope topic = true) :
    semanticScope = txt "*" ∨ Below semanticScope topic := by
  unfold topicScopeContains at h
  split at h
  · cases h
  · split at h
    · next hall => exact .inl hall
    · split at h
      · cases h
      · next hprefix =>
        have hscope := not_not.mp hprefix
        rw [Bool.or_eq_true, decide_eq_true_iff, decide_eq_true_iff] at h
        rcases h with hend | hslash
        · have hlen : topic.length ≤ semanticScope.length := List.getElem?_eq_none_iff.mp hend
          exact .inr (.inl (hscope.eq_of_length_le hlen).symm)
        · refine .inr (.inr ⟨topic.drop (semanticScope.length + 1), ?_⟩)
          rw [List.append_assoc, List.singleton_append]
          exact (eq_append_slash hscope hslash).symm

/-! ## Capabilities -/

/-- The switch of `argus_mqtt_security_required_permission`; 0 admits nobody. -/
def TopicAction.permission : TopicAction → PermissionSet
  | .heartbeat | .requestAuthority | .releaseAuthority => permissionRequestAuthority
  | .command .eStop => permissionSoftwareEstop
  | .command .resetEStop => permissionResetSoftwareEstop
  | .command .setTarget | .command .start | .command .stop | .command .unlock
  | .command .recover => permissionMotion
  | .none => 0

def requiredPermission (topics : MqttTopics) (topic : Bytes) : PermissionSet :=
  (topics.classify topic).permission

/-- `argus_mqtt_security_publish_allowed`. -/
def publishAllowed (topics : MqttTopics) (principal : MachinePrincipal) (topic : Bytes) : Bool :=
  if ¬ topicScopeContains principal.topicScope topic then false
  else
    let required := requiredPermission topics topic
    required ≠ 0 && principal.permissions &&& required = required

/-- `argus_mqtt_broker_message_t`. -/
structure BrokerMessage where
  connectionId : UInt64
  clientId : Bytes
  topic : Bytes
  payload : Bytes
  qos : UInt8
  retain : Bool
  dup : Bool
  policyAdmitted : Bool
  receivingInterface : UInt8
  principal : MachinePrincipal
deriving DecidableEq

/-- What the handlers of the runtime read of it. -/
def BrokerMessage.toMessage (m : BrokerMessage) : Message :=
  ⟨m.connectionId, m.payload, m.qos, m.retain, m.policyAdmitted, m.principal.toPrincipal⟩

/-- `argus_mqtt_topics_external_publish_allowed`. -/
def externalPublishAllowed (topics : MqttTopics) (message : BrokerMessage) : Bool :=
  if message.retain ∨ message.payload.length ≥ mqttBrokerPayloadCap ∨ 0 ∈ message.payload then false
  else topics.classify message.topic ≠ .none

end Argus
