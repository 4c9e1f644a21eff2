import ArgusPump.AuditTrail

/-!
# Audited mutations

`argus_security_audit_append`, `argus_security_audit_mutation_begin` and `_finish` of
`main/argus_security_audit.c`, called by any tasks.  A call checks its arguments, `append_record`
puts a request in the writer's queue, and the writer task takes the requests in order and appends
their records under the mutex.  Any of this may fail, and the device may reboot at any time.

A call looks at `s_finalization_degraded` before it has done anything else, so it starts with that
look; the diagnostic hooks that fail an append are failures here, the one that clears the flag is
left out, and so are calls before init has made the mutex.
-/

namespace Argus

open Interact AuditFlash

def auditQueueLength : Nat := 8
def auditLoginSuccess : UInt32 := 1
def auditMqttPolicyRejected : UInt32 := 22

/-- `safe_text`; a string is its bytes before the NUL. -/
def safeText (value : Option (List UInt8)) (capacity : Nat) : Bool :=
  match value with
  | none => false
  | some s => s.length < capacity && s.all fun c => 0x20 ≤ c && c ≤ 0x7E

/-- The arguments of `append_record`. -/
structure AuditEntry where
  type : UInt32
  outcome : UInt32
  principalType : UInt8
  lifecycleId : UInt16
  actor : Option (List UInt8)
  target : Option (List UInt8)
  source : Option (List UInt8)
  reason : Option (List UInt8)
  securityEpoch : UInt32
  required : Bool

namespace AuditEntry

/-- What `append_record` asks of them. -/
def valid (e : AuditEntry) : Bool :=
  auditLoginSuccess ≤ e.type && e.type ≤ auditMqttPolicyRejected &&
    auditOutcomeSuccess.toUInt32 ≤ e.outcome && e.outcome ≤ auditOutcomePrepared.toUInt32 &&
    safeText e.actor (auditTextMax + 1) && safeText e.target (auditTextMax + 1) &&
    safeText e.source 16 && safeText e.reason (auditTextMax + 1)

/-- The record of the request. -/
def record (e : AuditEntry) : AuditRecord :=
  { AuditRecord.zero with
    eventType := e.type.toUInt16
    outcome := e.outcome.toUInt8
    principalType := e.principalType
    lifecycleId := e.lifecycleId
    securityEpoch := e.securityEpoch
    actor := strlcpy 37 (e.actor.getD [])
    target := strlcpy 37 (e.target.getD [])
    source := strlcpy 16 (e.source.getD [])
    reason := strlcpy 37 (e.reason.getD []) }

end AuditEntry

/-- `argus_security_audit_mutation_t`. -/
structure AuditMutation where
  eventType : UInt32
  principalType : UInt8
  lifecycleId : UInt16
  securityEpoch : UInt32
  actor : Vector UInt8 37
  target : Vector UInt8 37
  source : Vector UInt8 16
  action : Vector UInt8 21
deriving DecidableEq

/-- The arguments of `argus_security_audit_mutation_begin`; `out` tells whether there is one. -/
structure MutationRequest where
  type : UInt32
  principalType : UInt8
  actor : Option (List UInt8)
  target : Option (List UInt8)
  source : Option (List UInt8)
  action : Option (List UInt8)
  securityEpoch : UInt32
  out : Bool

/-- What `argus_security_audit_mutation_begin` makes of its arguments. -/
def mutationBegin (q : MutationRequest) (degraded : Bool) : Except EspErr AuditEntry :=
  match q.action with
  | none => .error espErrInvalidState
  | some action =>
    if q.out = false ∨ safeText (some action) (auditActionMax + 1) = false ∨ action = [] ∨ degraded = true then
      .error espErrInvalidState
    else
      let reason := action ++ asciiBytes "_prepared"
      if reason.length ≥ auditTextMax + 1 then .error espErrInvalidArg
      else .ok ⟨q.type, auditOutcomePrepared.toUInt32, q.principalType, 0, q.actor, q.target, q.source,
        some reason, q.securityEpoch, true⟩

/-- `out` of `argus_security_audit_mutation_begin`. -/
def MutationRequest.mutation (q : MutationRequest) (written : AuditRecord) : AuditMutation where
  eventType := q.type
  principalType := q.principalType
  lifecycleId := written.lifecycleId
  securityEpoch := q.securityEpoch
  actor := strlcpy 37 (q.actor.getD [])
  target := strlcpy 37 (q.target.getD [])
  source := strlcpy 16 (q.source.getD [])
  action := strlcpy 21 (q.action.getD [])

/-- The outcome of a terminal record. -/
def finishOutcome (succeeded : Bool) : UInt8 := if succeeded then auditOutcomeSuccess else auditOutcomeFailed

def finishSuffix (succeeded : Bool) : List UInt8 := asciiBytes (if succeeded then "_succeeded" else "_failed")

/-- What `argus_security_audit_mutation_finish` makes of its arguments. -/
def mutationFinish (mutation : Option AuditMutation) (succeeded : Bool) : Except EspErr AuditEntry :=
  match mutation with
  | none => .error espErrInvalidArg
  | some m =>
    if m.lifecycleId = 0 then .error espErrInvalidArg
    else
      let reason := cString m.action ++ finishSuffix succeeded
      if reason.length ≥ auditTextMax + 1 then .error espErrInvalidArg
      else .ok ⟨m.eventType, (finishOutcome succeeded).toUInt32, m.principalType, m.lifecycleId,
        some (cString m.actor), some (cString m.target), some (cString m.source), some reason,
        m.securityEpoch, true⟩

/-- The three calls. -/
inductive AuditOperation
  | append (entry : AuditEntry)
  | begin (request : MutationRequest)
  | finish (mutation : Option AuditMutation) (succeeded : Bool)

namespace AuditOperation

/-- What a call gives to `append_record`; `argus_security_audit_append` gives no lifecycle. -/
def entry (op : AuditOperation) (degraded : Bool) : Except EspErr AuditEntry :=
  match op with
  | .append entry => .ok { entry with lifecycleId := 0 }
  | .begin q => mutationBegin q degraded
  | .finish mutation succeeded => mutationFinish mutation succeeded

def isFinish : AuditOperation → Bool
  | .finish _ _ => true
  | _ => false

/-- What a call stores besides its result. -/
def out (op : AuditOperation) (err : EspErr) (written : AuditRecord) : Option AuditMutation :=
  match op with
  | .begin q => if err = espOk then some (q.mutation written) else none
  | _ => none

end AuditOperation

/-! ## The tasks, the queue and the writer -/

/-- A task that calls. -/
inductive AuditClient
  | idle
  /-- In `append_record`. -/
  | appends (op : AuditOperation) (entry : AuditEntry)
  /-- Waits for `completion`. -/
  | waits (op : AuditOperation) (record : AuditRecord)
  /-- With the result of `append_record`, and the record it has written. -/
  | served (op : AuditOperation) (err : EspErr) (written : AuditRecord)

/-- A request: of a task that waits for it, or of none. -/
inductive AuditRequest
  | required (c : Nat)
  | optional (record : AuditRecord)

/-- `degraded` is `s_finalization_degraded`, `writer` the request the writer task has taken. -/
structure AuditService where
  device : AuditDevice
  degraded : Bool
  queue : List AuditRequest
  writer : Option AuditRequest
  clients : Nat → AuditClient

inductive AuditServiceAct
  /-- A call that its own checks refuse. -/
  | refuse (op : AuditOperation) (err : EspErr)
  | enter (c : Nat) (op : AuditOperation)
  | drop (c : Nat) (err : EspErr)
  | enqueue (c : Nat)
  | receive
  | write (record : AuditRecord) (err : EspErr)
  | leave (op : AuditOperation) (err : EspErr) (out : Option AuditMutation)
  | init (act : AuditAct)
  | reboot (act : AuditAct)

namespace AuditService

def setClient (s : AuditService) (c : Nat) (client : AuditClient) : AuditService :=
  { s with clients := fun i => if i = c then client else s.clients i }

/-- After a reboot. -/
def booting (device : AuditDevice) : AuditService := ⟨device, false, [], none, fun _ => .idle⟩

def blank : AuditService := booting blankAudit

/-- The record of a request. -/
def recordOf (s : AuditService) : AuditRequest → Option AuditRecord
  | .optional record => some record
  | .required c =>
    match s.clients c with
    | .waits _ record => some record
    | _ => none

/-- With the result of a request. -/
def answer (s : AuditService) (request : AuditRequest) (err : EspErr) (written : AuditRecord) : AuditService :=
  match request with
  | .optional _ => s
  | .required c =>
    match s.clients c with
    | .waits op _ => s.setClient c (.served op err written)
    | _ => s

end AuditService

/-- The steps of the tasks and of `audit_task`, and what happens to the device. -/
inductive AuditServiceStep : AuditService → AuditServiceAct → AuditService → Prop
  | refuse {s : AuditService} {c : Nat} {op : AuditOperation} {err : EspErr} :
      s.device.mutex = true → s.clients c = .idle → op.entry s.degraded = .error err →
      AuditServiceStep s (.refuse op err) s
  | enter {s : AuditService} {c : Nat} {op : AuditOperation} {entry : AuditEntry} :
      s.device.mutex = true → s.clients c = .idle → op.entry s.degraded = .ok entry →
      AuditServiceStep s (.enter c op) (s.setClient c (.appends op entry))
  /-- No audit, arguments `append_record` does not take, no memory, or a full queue. -/
  | drop {s : AuditService} {c : Nat} {op : AuditOperation} {entry : AuditEntry} {err : EspErr} :
      s.clients c = .appends op entry → err ≠ espOk →
      AuditServiceStep s (.drop c err) (s.setClient c (.served op err .zero))
  | enqueue {s : AuditService} {c : Nat} {op : AuditOperation} {entry : AuditEntry} :
      s.clients c = .appends op entry → s.device.ram ≠ none → entry.valid = true →
      s.queue.length < auditQueueLength →
      AuditServiceStep s (.enqueue c)
        (if entry.required then
          { s.setClient c (.waits op entry.record) with queue := s.queue ++ [.required c] }
        else
          { s.setClient c (.served op espOk .zero) with queue := s.queue ++ [.optional entry.record] })
  | receive {s : AuditService} {request : AuditRequest} {queue : List AuditRequest} :
      s.writer = none → s.queue = request :: queue →
      AuditServiceStep s .receive { s with queue := queue, writer := some request }
  /-- `append_locked`, under the mutex, and the completion. -/
  | write {s : AuditService} {request : AuditRequest} {record : AuditRecord} {uptimeUs : UInt64}
      {ram : AuditRam} {err : EspErr} {device : AuditDevice} :
      s.writer = some request → s.recordOf request = some record → s.device.ram = some ram →
      AuditStep s.device (.append (ram.stamp record uptimeUs) err) device →
      AuditServiceStep s (.write (ram.stamp record uptimeUs) err)
        { s.answer request err (ram.stamp record uptimeUs) with device := device, writer := none }
  /-- A `finish` without its record marks the audit first. -/
  | leave {s : AuditService} {c : Nat} {op : AuditOperation} {err : EspErr} {written : AuditRecord} :
      s.clients c = .served op err written →
      AuditServiceStep s (.leave op err (op.out err written))
        { s.setClient c .idle with degraded := s.degraded || (op.isFinish && err ≠ espOk) }
  | init {s : AuditService} {act : AuditAct} {device : AuditDevice} :
      act = .init ∨ act = .initAgain ∨ (∃ err, act = .initFailed err) → AuditStep s.device act device →
      AuditServiceStep s (.init act) { s with device := device }
  | reboot {s : AuditService} {device : AuditDevice} :
      AuditStep s.device .reboot device → AuditServiceStep s (.reboot .reboot) (.booting device)
  /-- A power loss in `append_locked`, -/
  | interrupted {s : AuditService} {request : AuditRequest} {record : AuditRecord} {uptimeUs : UInt64}
      {ram : AuditRam} {device : AuditDevice} :
      s.writer = some request → s.recordOf request = some record → s.device.ram = some ram →
      AuditStep s.device (.interrupted (ram.stamp record uptimeUs)) device →
      AuditServiceStep s (.reboot (.interrupted (ram.stamp record uptimeUs))) (.booting device)
  /-- or in init. -/
  | initCut {s : AuditService} {device : AuditDevice} :
      AuditStep s.device .initCut device → AuditServiceStep s (.reboot .initCut) (.booting device)

abbrev AuditServiceMove := Move AuditService AuditServiceAct

end Argus
