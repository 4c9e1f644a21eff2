import ArgusPump.BrokerDelivery

/-!
# Start and stop of the broker

`argus_mqtt_broker_start`, `argus_mqtt_broker_stop`, the server task and the ends of the
client tasks (`main/argus_mqtt_broker.c`), each cut at every use of `lifecycle_mutex`,
`client_lock`, the event bits and the count of clients.  Any number of callers; a wait may
time out whenever its bits are not set.

    the handle stands for the one server task that has not given it back   (one_server)
    STOPPED → no server task, no listener, no active client, if every failed start
      checks this before it writes STOPPED                                 (stopped_converged)
    … → a start clears the tables of no client task that is alive

Left out: the descriptors (`Sockets`), port and callbacks, the counters kept for diagnosis,
and what a task does with a record a start has cleared under it, other than leave.
-/

namespace Argus

open Interact

/-- `argus_broker_state_t`. -/
inductive BrokerState
  | stopped | starting | running | stopping
deriving DecidableEq

/-- The bits of `lifecycle_event_group`. -/
structure LifecycleEvents where
  started : Bool
  stopped : Bool
  clientsExited : Bool
deriving DecidableEq

def LifecycleEvents.none : LifecycleEvents := ⟨false, false, false⟩

/-- Where `argus_mqtt_server_task` is. -/
inductive ServerTask
  /-- Before it has its listening socket. -/
  | created
  | failed
  | listening (sock : Int)
  /-- RUNNING is published, the bit is not set yet. -/
  | started
  | top
  | waiting
  /-- `accept` has failed. -/
  | refused
  | accepted
  | counting
  /-- The client is counted and has no record yet. -/
  | reserved
  /-- The record is handed out, `xTaskCreate` has not answered yet. -/
  | creating (i : Fin mqttMaxConnections)
  | rejecting
  | leaving
  /-- The handle is given back; the listening socket nobody has seen is still open. -/
  | unlistening
  | exiting
  | exited
deriving DecidableEq

/-- The task has not given its handle back. -/
def ServerTask.live : ServerTask → Bool
  | .unlistening | .exiting | .exited => false
  | _ => true

/-- What the server task gets from outside. -/
inductive ServerAnswer
  | go
  /-- The listening socket; a negative one where `socket`, `bind` or `listen` fails. -/
  | listen (sock : Int)
  | accept (ok : Bool)
  | alloc (sock : Int) (peerKey : UInt32) (receivingInterface : UInt8) (sourceProven : Bool)
  | create (ok : Bool)
deriving DecidableEq

/-- Where a call of start or stop is. -/
inductive LifecycleCall
  /-- A start waits for its server task. -/
  | startWaiting
  /-- It has seen STOPPED. -/
  | startFailed
  | startTimedOut
  /-- The listener is closed; it waits for STOPPED. -/
  | startStopping
  | startStopped
  /-- A stop waits for the claims and takes the sockets. -/
  | stopRetiring (waitForServerTask : Bool)
  | stopWaiting
  | stopDraining
  | stopWaitingClients
  | stopRecounting
  | stopFinishing
  | returned (err : EspErr)
deriving DecidableEq

structure Lifecycle where
  state : BrokerState
  startupError : EspErr
  listenSock : Int
  /-- The number of a server task. -/
  serverTaskHandle : Option Nat
  activeClientCount : Int
  events : LifecycleEvents
  /-- The connection and session tables, with the client tasks that have a record. -/
  records : Broker
  retained : Fin mqttMaxRetained → Option (Bytes × Bytes)
  servers : List ServerTask
  /-- The records of client tasks a start has cleared under them. -/
  orphans : List (Fin mqttMaxConnections)
  /-- Client tasks that have closed their record and are still counted. -/
  departing : Nat
  /-- Client tasks that have found themselves the last. -/
  notifying : Nat
  calls : List LifecycleCall

inductive LifecycleAct
  /-- `argus_mqtt_broker_start` until it gives the lock back; `created` is the answer of
  `xTaskCreate`. -/
  | start (created : Bool)
  | stop
  /-- The next step of a call. -/
  | call (j : Nat) (timedOut : Bool)
  | server (k : Nat) (answer : ServerAnswer)
  /-- A client task, the directory, a fence or a disconnect. -/
  | records (act : BrokerAct)
  | orphan (i : Fin mqttMaxConnections)
  | depart
  | notify
  /-- `argus_mqtt_store_retained_locked` in a publication. -/
  | retain (topic payload : Bytes)
deriving DecidableEq

namespace Lifecycle

/-- After `argus_mqtt_broker_init`. -/
def init (directory : List MachineEntry) : Lifecycle :=
  ⟨.stopped, espOk, -1, none, 0, .none, .start 0 directory, fun _ => none, [], [], 0, 0, []⟩

/-- The check of `argus_mqtt_broker_stop` before it publishes STOPPED. -/
def resourcesAbsent (s : Lifecycle) : Bool :=
  s.serverTaskHandle.isNone && s.listenSock < 0 && s.activeClientCount = 0

/-- `argus_mqtt_broker_observation_is_stopped`. -/
def observedStopped (s : Lifecycle) : Bool := s.state = .stopped && s.resourcesAbsent

/-- The client tasks that have a record, with one that is being created. -/
def recordTasks (b : Broker) : Nat := Slots.count (fun phase => phase ≠ ClientPhase.none) b.task

/-- The client tasks that are still to give back their count. -/
def clientTasks (s : Lifecycle) : Nat := recordTasks s.records + s.orphans.length + s.departing

/-- A start finds what it asks for and clears the tables. -/
def clears (s : Lifecycle) : LifecycleAct → Bool
  | .start _ => s.state = .stopped && s.serverTaskHandle.isNone
  | _ => false

/-- The connection, session and retained tables are cleared. -/
def cleared (s : Lifecycle) : Lifecycle :=
  { s with
    listenSock := -1
    startupError := espOk
    activeClientCount := 0
    records := { Broker.start s.records.nextConnectionId s.records.directory with
      targets := s.records.targets }
    retained := fun _ => none
    orphans := s.orphans ++ (List.finRange mqttMaxConnections).filter fun i =>
      s.records.task i ≠ .none
    events := .none }

def start (s : Lifecycle) (created : Bool) : Lifecycle :=
  if s.state ≠ .stopped ∨ s.serverTaskHandle ≠ none then
    { s with calls := s.calls ++ [.returned espErrInvalidState] }
  else if created then
    { s.cleared with
      state := .starting
      serverTaskHandle := some s.servers.length
      servers := s.servers ++ [.created]
      calls := s.calls ++ [.startWaiting] }
  else
    { s.cleared with
      state := .stopped
      serverTaskHandle := none
      calls := s.calls ++ [.returned espErrNoMem] }

def stop (s : Lifecycle) : Lifecycle :=
  if s.observedStopped then { s with calls := s.calls ++ [.returned espOk] }
  else
    { s with
      events := .none
      state := .stopping
      listenSock := -1
      calls := s.calls ++ [.stopRetiring s.serverTaskHandle.isSome] }

/-- The sockets are taken out of the records. -/
def retireRecords (b : Broker) : Broker :=
  { b with
    clients := fun i =>
      if (Sockets.retired (b.clients i)).isSome then { b.clients i with sock := -1 }
      else b.clients i }

/-- The state after the next step of a call, and where the call is then. -/
def callNext (s : Lifecycle) (timedOut : Bool) : LifecycleCall → Option (Lifecycle × LifecycleCall)
  | .startWaiting =>
    if s.events.started then some (s, .returned espOk)
    else if s.events.stopped then some (s, .startFailed)
    else if timedOut then some (s, .startTimedOut)
    else none
  | .startFailed =>
    some ({ s with state := .stopped },
      .returned (if s.startupError ≠ espOk then s.startupError else espFail))
  | .startTimedOut => some ({ s with state := .stopping, listenSock := -1 }, .startStopping)
  | .startStopping =>
    if s.events.stopped then some (s, .startStopped)
    else if timedOut then some (s, .returned espErrTimeout)
    else none
  | .startStopped => some ({ s with state := .stopped }, .returned espErrTimeout)
  | .stopRetiring waitForServerTask =>
    if ∃ i, (s.records.clients i).shutdownClaimed = true then none
    else
      some ({ s with records := retireRecords s.records },
        if waitForServerTask then .stopWaiting else .stopDraining)
  | .stopWaiting =>
    if s.events.stopped then some (s, .stopDraining)
    else if timedOut then some (s, .returned espErrTimeout)
    else none
  | .stopDraining =>
    some (s, if 0 < s.activeClientCount then .stopWaitingClients else .stopFinishing)
  | .stopWaitingClients =>
    if s.events.clientsExited then some (s, .stopFinishing)
    else if timedOut then some (s, .stopRecounting)
    else none
  | .stopRecounting =>
    some (s, if 0 < s.activeClientCount then .returned espErrTimeout else .stopFinishing)
  | .stopFinishing =>
    if s.resourcesAbsent then some ({ s with state := .stopped }, .returned espOk)
    else some (s, .returned espErrTimeout)
  | .returned _ => none

/-- The state is RUNNING and there is a listener. -/
def accepting (s : Lifecycle) : Bool := s.state = .running && 0 ≤ s.listenSock

/-- The state after the next step of a server task, and where the task is then. -/
def serverNext (s : Lifecycle) : ServerTask → ServerAnswer → Option (Lifecycle × ServerTask)
  | .created, .listen sock => some (s, if 0 ≤ sock then .listening sock else .failed)
  | .failed, .go => some ({ s with startupError := espFail, serverTaskHandle := none }, .exiting)
  | .listening sock, .go =>
    if s.state = .starting then
      some ({ s with listenSock := sock, state := .running, startupError := espOk }, .started)
    else some ({ s with serverTaskHandle := none }, .unlistening)
  | .started, .go => some ({ s with events := { s.events with started := true } }, .top)
  | .top, .go => some (s, if s.accepting then .waiting else .leaving)
  | .waiting, .accept ok => some (s, if ok then .accepted else .refused)
  | .refused, .go => some (s, if s.accepting then .top else .leaving)
  | .accepted, .go => some (s, if s.state = .running then .counting else .leaving)
  | .counting, .go => some ({ s with activeClientCount := s.activeClientCount + 1 }, .reserved)
  | .reserved, .alloc sock peerKey receivingInterface sourceProven =>
    let (client, _) := s.records.allocClient sock peerKey receivingInterface sourceProven
    (s.records.next (.accept sock peerKey receivingInterface sourceProven)).map fun b =>
      ({ s with records := b }, match client with | some i => .creating i | none => .rejecting)
  | .creating i, .create ok =>
    (s.records.next (if ok then .taskCreated i else .taskFailed i)).map fun b =>
      ({ s with records := b }, if ok then .top else .rejecting)
  | .rejecting, .go => some ({ s with activeClientCount := s.activeClientCount - 1 }, .top)
  | .leaving, .go => some ({ s with serverTaskHandle := none }, .exiting)
  | .unlistening, .go => some (s, .exiting)
  | .exiting, .go => some ({ s with events := { s.events with stopped := true } }, .exited)
  | _, _ => none

/-- The steps of the records that are the server task's. -/
def serverAct : BrokerAct → Bool
  | .accept _ _ _ _ | .taskCreated _ | .taskFailed _ => true
  | _ => false

/-- The client tasks that close their record in a step. -/
def closes : BrokerAct → Nat
  | .close _ => 1
  | _ => 0

/-- The locked part of `argus_mqtt_close_client`, of a task whose record is no longer its own. -/
def closeOrphan (s : Lifecycle) (i : Fin mqttMaxConnections) : Lifecycle :=
  { s with
    records := { s.records.closeClient i with task := s.records.task }
    orphans := s.orphans.erase i
    departing := s.departing + 1 }

def next (s : Lifecycle) : LifecycleAct → Option Lifecycle
  | .start created => some (s.start created)
  | .stop => some s.stop
  | .call j timedOut =>
    (s.calls[j]?.bind (s.callNext timedOut)).map fun (t, call) =>
      { t with calls := s.calls.set j call }
  | .server k answer =>
    (s.servers[k]?.bind (s.serverNext · answer)).map fun (t, task) =>
      { t with servers := s.servers.set k task }
  | .records act =>
    if serverAct act then none
    else
      (s.records.next act).map fun b =>
        { s with
          records := b
          departing := s.departing + closes act }
  | .orphan i =>
    if i ∈ s.orphans ∧ (s.records.clients i).shutdownClaimed = false then some (s.closeOrphan i)
    else none
  | .depart =>
    if 0 < s.departing then
      some { s with
        activeClientCount := s.activeClientCount - 1
        departing := s.departing - 1
        notifying := if s.activeClientCount = 1 then s.notifying + 1 else s.notifying }
    else none
  | .notify =>
    if 0 < s.notifying then
      some { s with
        events := { s.events with clientsExited := true }
        notifying := s.notifying - 1 }
    else none
  | .retain topic payload =>
    if s.state = .running then
      some { s with retained := (Delivery.storeRetained s.retained topic payload).getD s.retained }
    else none

end Lifecycle

def lifecycleStep (s : Lifecycle) (act : LifecycleAct) (s' : Lifecycle) : Prop :=
  s.next act = some s'

abbrev LifecycleMove := Move Lifecycle LifecycleAct

/-- The moves on a list of acts, up to the first that has to wait. -/
def lifecycleTrace : Lifecycle → List LifecycleAct → List LifecycleMove :=
  traceWhile fun s act => (s.next act).map fun s' => (act, s')

theorem isRun_lifecycleTrace (s : Lifecycle) (acts : List LifecycleAct) :
    IsRun lifecycleStep s (lifecycleTrace s acts) := by
  refine isRun_traceWhile (fun s act ev s' h => ?_) s acts
  obtain ⟨t, hnext, heq⟩ := Option.map_eq_some_iff.mp h
  cases heq
  exact hnext

/-! ## The client tasks -/

namespace Lifecycle

theorem recordTasks_update (b : Broker) (i : Fin mqttMaxConnections) (phase : ClientPhase) :
    Slots.count (fun phase => phase ≠ ClientPhase.none) (Function.update b.task i phase) +
        (if b.task i = .none then 0 else 1) =
      recordTasks b + (if phase = .none then 0 else 1) := by
  have hupdate := Slots.count_update (fun phase => decide (phase ≠ ClientPhase.none)) b.task i phase
  simp only [decide_eq_true_eq, ite_not] at hupdate
  exact hupdate

/-- A step of the records that hands none out. -/
theorem recordTasks_next {b b' : Broker} {act : BrokerAct} (h : brokerStep b act b')
    (hact : ∀ sock peerKey receivingInterface sourceProven,
      act ≠ .accept sock peerKey receivingInterface sourceProven) :
    recordTasks b' + act.ends.toNat = recordTasks b := by
  cases brokerStep_tasks h with
  | same _ hends htask =>
    unfold recordTasks
    rw [hends, htask]
    rfl
  | works _ i phase hsome _ hends htask =>
    have hupdate := recordTasks_update b i phase
    rw [if_neg hsome, ← htask] at hupdate
    have hcount : recordTasks b' + 1 = recordTasks b + if phase = .none then 0 else 1 := hupdate
    cases hact : act.ends with
    | true =>
      rw [if_pos (hends.mpr hact)] at hcount
      exact hcount
    | false =>
      have hphase : phase ≠ .none := by
        intro hp
        cases hact.symm.trans (hends.mp hp)
      rw [if_neg hphase] at hcount
      exact Nat.add_right_cancel hcount
  | handed => exact absurd rfl (hact _ _ _ _)

theorem recordTasks_alloc {b b' : Broker} {sock : Int} {peerKey : UInt32} {receivingInterface : UInt8}
    {sourceProven : Bool}
    (h : brokerStep b (.accept sock peerKey receivingInterface sourceProven) b')
    (hused : ∀ i, b.task i ≠ .none → (b.clients i).inUse = true) :
    recordTasks b' = recordTasks b +
      (if (b.allocClient sock peerKey receivingInterface sourceProven).1.isSome then 1 else 0) := by
  rcases accept_next h with ⟨hnone, rfl⟩ | ⟨i, hsome, -, -, hfree, rfl⟩
  · rw [hnone]
    rfl
  · have htask : b.task i = .none := by
      by_contra hne
      cases (hused i hne).symm.trans (Slots.firstFree_spec hfree)
    have hupdate := recordTasks_update b i .created
    rw [if_pos htask, if_neg nofun] at hupdate
    rw [hsome]
    exact hupdate

/-- A client task that ends has closed its record. -/
theorem closes_eq {act : BrokerAct} (h : serverAct act = false) : closes act = act.ends.toNat := by
  cases act with
  | taskFailed => cases h
  | _ => rfl

end Lifecycle

/-! ## What a step can do -/

/-- The task is counted for a client that has no record. -/
def ServerTask.counted : ServerTask → Bool
  | .reserved | .rejecting => true
  | _ => false

/-- A step of a call. -/
structure CallStep (s : Lifecycle) (call : LifecycleCall) (t : Lifecycle) : Prop where
  servers : t.servers = s.servers
  serverTaskHandle : t.serverTaskHandle = s.serverTaskHandle
  activeClientCount : t.activeClientCount = s.activeClientCount
  orphans : t.orphans = s.orphans
  departing : t.departing = s.departing
  records : t.records = s.records ∨ t.records = Lifecycle.retireRecords s.records
  stopped : t.state = .stopped → t.listenSock = s.listenSock ∧
    (s.state = .stopped ∨ s.resourcesAbsent = true ∨ call = .startFailed ∨ call = .startStopped)

theorem CallStep.refl (s : Lifecycle) (call : LifecycleCall) : CallStep s call s :=
  ⟨rfl, rfl, rfl, rfl, rfl, .inl rfl, fun h => ⟨rfl, .inl h⟩⟩

theorem callNext_spec {s t : Lifecycle} {timedOut : Bool} {call call' : LifecycleCall}
    (h : s.callNext timedOut call = some (t, call')) : CallStep s call t := by
  cases call with
  | startWaiting =>
    dsimp only [Lifecycle.callNext] at h
    split_ifs at h <;> cases h <;> exact .refl _ _
  | startFailed =>
    cases h
    exact ⟨rfl, rfl, rfl, rfl, rfl, .inl rfl, fun _ => ⟨rfl, .inr (.inr (.inl rfl))⟩⟩
  | startTimedOut =>
    cases h
    exact ⟨rfl, rfl, rfl, rfl, rfl, .inl rfl, fun hstopped => by cases hstopped⟩
  | startStopping =>
    dsimp only [Lifecycle.callNext] at h
    split_ifs at h <;> cases h <;> exact .refl _ _
  | startStopped =>
    cases h
    exact ⟨rfl, rfl, rfl, rfl, rfl, .inl rfl, fun _ => ⟨rfl, .inr (.inr (.inr rfl))⟩⟩
  | stopRetiring waitForServerTask =>
    dsimp only [Lifecycle.callNext] at h
    split_ifs at h <;> cases h <;>
      exact ⟨rfl, rfl, rfl, rfl, rfl, .inr rfl, fun hstopped => ⟨rfl, .inl hstopped⟩⟩
  | stopWaiting =>
    dsimp only [Lifecycle.callNext] at h
    split_ifs at h <;> cases h <;> exact .refl _ _
  | stopDraining =>
    cases h
    exact .refl _ _
  | stopWaitingClients =>
    dsimp only [Lifecycle.callNext] at h
    split_ifs at h <;> cases h <;> exact .refl _ _
  | stopRecounting =>
    cases h
    exact .refl _ _
  | stopFinishing =>
    dsimp only [Lifecycle.callNext] at h
    split at h
    · next habsent =>
      cases h
      exact ⟨rfl, rfl, rfl, rfl, rfl, .inl rfl, fun _ => ⟨rfl, .inr (.inl habsent)⟩⟩
    · cases h
      exact .refl _ _
  | returned => cases h

/-- A step of a server task. -/
structure ServerStep (s : Lifecycle) (task : ServerTask) (t : Lifecycle) (task' : ServerTask) :
    Prop where
  orphans : t.orphans = s.orphans
  departing : t.departing = s.departing
  stopped : t.state = .stopped → s.state = .stopped
  serverTaskHandle : task'.live = task.live ∧ t.serverTaskHandle = s.serverTaskHandle ∨
    task.live = true ∧ task'.live = false ∧ t.serverTaskHandle = none
  /-- A task without its handle is of no consequence. -/
  gone : task.live = false → t.listenSock = s.listenSock ∧
    t.activeClientCount = s.activeClientCount
  records : t.records = s.records ∨ ∃ act, brokerStep s.records act t.records
  count : (∀ i, s.records.task i ≠ .none → (s.records.clients i).inUse = true) →
    t.activeClientCount + (Lifecycle.recordTasks s.records + task.counted.toNat : Nat) =
      s.activeClientCount + (Lifecycle.recordTasks t.records + task'.counted.toNat : Nat)

theorem serverNext_spec {s t : Lifecycle} {task task' : ServerTask} {answer : ServerAnswer}
    (h : s.serverNext task answer = some (t, task')) : ServerStep s task t task' := by
  unfold Lifecycle.serverNext at h
  split at h
  · -- the listening socket
    cases h
    split <;> exact ⟨rfl, rfl, id, .inl ⟨rfl, rfl⟩, nofun, .inl rfl, fun _ => rfl⟩
  · cases h
    exact ⟨rfl, rfl, id, .inr ⟨rfl, rfl, rfl⟩, nofun, .inl rfl, fun _ => rfl⟩
  · split at h
    · cases h
      exact ⟨rfl, rfl, nofun, .inl ⟨rfl, rfl⟩, nofun, .inl rfl, fun _ => rfl⟩
    · cases h
      exact ⟨rfl, rfl, id, .inr ⟨rfl, rfl, rfl⟩, nofun, .inl rfl, fun _ => rfl⟩
  · cases h
    exact ⟨rfl, rfl, id, .inl ⟨rfl, rfl⟩, nofun, .inl rfl, fun _ => rfl⟩
  · cases h
    split <;> exact ⟨rfl, rfl, id, .inl ⟨rfl, rfl⟩, nofun, .inl rfl, fun _ => rfl⟩
  · cases h
    split <;> exact ⟨rfl, rfl, id, .inl ⟨rfl, rfl⟩, nofun, .inl rfl, fun _ => rfl⟩
  · cases h
    split <;> exact ⟨rfl, rfl, id, .inl ⟨rfl, rfl⟩, nofun, .inl rfl, fun _ => rfl⟩
  · cases h
    split <;> exact ⟨rfl, rfl, id, .inl ⟨rfl, rfl⟩, nofun, .inl rfl, fun _ => rfl⟩
  · -- a client is counted
    cases h
    refine ⟨rfl, rfl, id, .inl ⟨rfl, rfl⟩, nofun, .inl rfl, fun _ => ?_⟩
    simp only [ServerTask.counted, Bool.toNat_true, Bool.toNat_false]
    omega
  · -- it gets its record, or none
    next sock peerKey receivingInterface sourceProven =>
    dsimp only at h
    obtain ⟨b, hb, heq⟩ := Option.map_eq_some_iff.mp h
    cases heq
    refine ⟨rfl, rfl, id, ?_, nofun, .inr ⟨_, hb⟩, fun hused => ?_⟩
    · split <;> exact .inl ⟨rfl, rfl⟩
    · have htasks := Lifecycle.recordTasks_alloc hb hused
      dsimp only
      rw [htasks]
      cases (s.records.allocClient sock peerKey receivingInterface sourceProven).1 with
      | none => rfl
      | some i => rfl
  · -- the task of the record is created, or not
    obtain ⟨b, hb, heq⟩ := Option.map_eq_some_iff.mp h
    cases heq
    refine ⟨rfl, rfl, id, ?_, nofun, .inr ⟨_, hb⟩, fun _ => ?_⟩
    · split <;> exact .inl ⟨rfl, rfl⟩
    · next i ok _ =>
      have htasks := Lifecycle.recordTasks_next hb (by split <;> nofun)
      dsimp only
      rw [← htasks]
      cases ok with
      | true => rfl
      | false => rfl
  · cases h
    refine ⟨rfl, rfl, id, .inl ⟨rfl, rfl⟩, nofun, .inl rfl, fun _ => ?_⟩
    simp only [ServerTask.counted, Bool.toNat_true, Bool.toNat_false]
    omega
  · cases h
    exact ⟨rfl, rfl, id, .inr ⟨rfl, rfl, rfl⟩, nofun, .inl rfl, fun _ => rfl⟩
  · cases h
    exact ⟨rfl, rfl, id, .inl ⟨rfl, rfl⟩, fun _ => ⟨rfl, rfl⟩, .inl rfl, fun _ => rfl⟩
  · cases h
    exact ⟨rfl, rfl, id, .inl ⟨rfl, rfl⟩, fun _ => ⟨rfl, rfl⟩, .inl rfl, fun _ => rfl⟩
  · cases h

/-! ## The handle -/

/-- The handle stands for the server task that has not given it back. -/
def HandleInv (s : Lifecycle) : Prop :=
  ∀ k, s.serverTaskHandle = some k ↔ ∃ task, s.servers[k]? = some task ∧ task.live = true

/-- Steps that leave the server tasks alone. -/
theorem HandleInv.same {s t : Lifecycle} (h : HandleInv s) (hservers : t.servers = s.servers)
    (hhandle : t.serverTaskHandle = s.serverTaskHandle) : HandleInv t := by
  intro k
  rw [hservers, hhandle]
  exact h k

theorem HandleInv.server {s t : Lifecycle} {k : Nat} {task task' : ServerTask} (h : HandleInv s)
    (hk : s.servers[k]? = some task) (hs : ServerStep s task t task') :
    HandleInv { t with servers := s.servers.set k task' } := by
  have hlength : k < s.servers.length := (List.getElem?_eq_some_iff.mp hk).1
  have hself : s.serverTaskHandle = some k ↔ task.live = true := by
    rw [h k, hk]
    simp
  intro j
  dsimp only
  by_cases hjk : j = k
  · subst hjk
    rw [List.getElem?_set_self hlength]
    rcases hs.serverTaskHandle with ⟨hlive, hsame⟩ | ⟨-, hgone, hnone⟩
    · rw [hsame, hself]
      simp [hlive]
    · rw [hnone]
      simp [hgone]
  · rw [List.getElem?_set_ne (Ne.symm hjk)]
    rcases hs.serverTaskHandle with ⟨-, hsame⟩ | ⟨hlive, -, hnone⟩
    · rw [hsame]
      exact h j
    · rw [hnone]
      refine ⟨nofun, fun hother => ?_⟩
      have hj := (h j).mpr hother
      rw [hself.mpr hlive] at hj
      cases hj
      exact absurd rfl hjk

/-- A start finds no task and creates one. -/
theorem HandleInv.created {s t : Lifecycle} (h : HandleInv s) (hnone : s.serverTaskHandle = none)
    (hservers : t.servers = s.servers ++ [.created])
    (hhandle : t.serverTaskHandle = some s.servers.length) : HandleInv t := by
  intro k
  rw [hservers, hhandle, List.getElem?_append]
  split
  · next hlt =>
    have hold := h k
    rw [hnone] at hold
    refine ⟨fun heq => ?_, fun hlive => by cases hold.mpr hlive⟩
    cases heq
    exact absurd hlt (Nat.lt_irrefl _)
  · next hge =>
    by_cases hk : k = s.servers.length
    · subst hk
      simp [ServerTask.live]
    · have hout : ([ServerTask.created] : List ServerTask)[k - s.servers.length]? = none := by
        rw [List.getElem?_eq_none_iff]
        simp only [List.length_singleton]
        omega
      rw [hout]
      refine ⟨fun heq => ?_, fun ⟨_, hnone, _⟩ => by cases hnone⟩
      cases heq
      exact absurd rfl hk

theorem HandleInv.step {s s' : Lifecycle} {act : LifecycleAct} (h : HandleInv s)
    (hs : lifecycleStep s act s') : HandleInv s' := by
  unfold lifecycleStep Lifecycle.next at hs
  cases act with
  | start created =>
    cases hs
    unfold Lifecycle.start
    split
    · exact h.same rfl rfl
    · next hguard =>
      rw [not_or, not_not, not_not] at hguard
      split
      · exact h.created hguard.2 rfl rfl
      · exact h.same rfl hguard.2.symm
  | stop =>
    cases hs
    unfold Lifecycle.stop
    split <;> exact h.same rfl rfl
  | call j timedOut =>
    obtain ⟨⟨t, call'⟩, hcall, rfl⟩ := Option.map_eq_some_iff.mp hs
    obtain ⟨call, -, hnext⟩ := Option.bind_eq_some_iff.mp hcall
    have hspec := callNext_spec hnext
    exact h.same hspec.servers hspec.serverTaskHandle
  | server k answer =>
    obtain ⟨⟨t, task'⟩, hserver, rfl⟩ := Option.map_eq_some_iff.mp hs
    obtain ⟨task, hk, hnext⟩ := Option.bind_eq_some_iff.mp hserver
    exact h.server hk (serverNext_spec hnext)
  | records act =>
    dsimp only at hs
    split at hs
    · cases hs
    · obtain ⟨b, -, rfl⟩ := Option.map_eq_some_iff.mp hs
      exact h.same rfl rfl
  | orphan i =>
    dsimp only at hs
    split at hs <;> cases hs
    exact h.same rfl rfl
  | depart =>
    dsimp only at hs
    split at hs <;> cases hs
    exact h.same rfl rfl
  | notify =>
    dsimp only at hs
    split at hs <;> cases hs
    exact h.same rfl rfl
  | retain topic payload =>
    dsimp only at hs
    split at hs <;> cases hs
    exact h.same rfl rfl

theorem HandleInv.init (directory : List MachineEntry) : HandleInv (.init directory) := by
  intro k
  simp [Lifecycle.init]

/-- There is one server task at a time, whatever start and stop have seen. -/
theorem one_server {directory : List MachineEntry} {ms : List LifecycleMove}
    (h : IsRun lifecycleStep (.init directory) ms) {j k : Nat} {task task' : ServerTask} :
    let s := final (.init directory) ms
    s.servers[j]? = some task → task.live = true → s.servers[k]? = some task' →
      task'.live = true → j = k := by
  intro s hj hjlive hk hklive
  have hinv : HandleInv s := (h.inv (HandleInv.init directory) fun v hv hs => hv.step hs).2
  have hhandle := (hinv j).mpr ⟨task, hj, hjlive⟩
  rw [(hinv k).mpr ⟨task', hk, hklive⟩] at hhandle
  cases hhandle
  rfl

/-! ## STOPPED -/

structure LifecycleInv (s : Lifecycle) : Prop where
  handle : HandleInv s
  used : ∀ i, s.records.task i ≠ .none → (s.records.clients i).inUse = true
  orphans : s.orphans = []
  /-- Who is counted: the client tasks, and the client the server task is busy with. -/
  count : s.activeClientCount = (Lifecycle.recordTasks s.records + s.departing +
    s.servers.countP ServerTask.counted : Nat)
  stopped : s.state = .stopped → s.resourcesAbsent = true

theorem resourcesAbsent_iff {s : Lifecycle} : s.resourcesAbsent = true ↔
    s.serverTaskHandle = none ∧ s.listenSock < 0 ∧ s.activeClientCount = 0 := by
  unfold Lifecycle.resourcesAbsent
  rw [Bool.and_eq_true, Bool.and_eq_true, Option.isNone_iff_eq_none, decide_eq_true_eq,
    decide_eq_true_eq, and_assoc]

/-- STOPPED: nobody is counted. -/
theorem LifecycleInv.quiet {s : Lifecycle} (h : LifecycleInv s) (hstopped : s.state = .stopped) :
    s.serverTaskHandle = none ∧ Lifecycle.recordTasks s.records = 0 ∧ s.departing = 0 ∧
      s.servers.countP ServerTask.counted = 0 := by
  obtain ⟨hhandle, -, hcount⟩ := resourcesAbsent_iff.mp (h.stopped hstopped)
  have hzero := h.count
  rw [hcount] at hzero
  refine ⟨hhandle, ?_, ?_, ?_⟩ <;> omega

theorem LifecycleInv.init (directory : List MachineEntry) : LifecycleInv (.init directory) where
  handle := .init directory
  used i h := absurd rfl h
  orphans := rfl
  count := by
    have hzero : Lifecycle.recordTasks (.start 0 directory) = 0 :=
      Slots.count_eq_zero.mpr fun _ => rfl
    show (0 : Int) = _
    simp [Lifecycle.init, hzero]
  stopped _ := rfl

/-- The tables are cleared when nobody uses them. -/
theorem cleared_quiet {s : Lifecycle} (h : LifecycleInv s) (hstopped : s.state = .stopped) :
    s.cleared.orphans = [] ∧ s.cleared.activeClientCount =
      (Lifecycle.recordTasks s.cleared.records + s.cleared.departing +
        s.cleared.servers.countP ServerTask.counted : Nat) := by
  obtain ⟨-, htasks, hdeparting, hservers⟩ := h.quiet hstopped
  constructor
  · show s.orphans ++ _ = []
    rw [h.orphans, List.nil_append, List.filter_eq_nil_iff]
    intro i _
    have hnone := Slots.count_eq_zero.mp htasks i
    simpa using hnone
  · have hzero : Lifecycle.recordTasks s.cleared.records = 0 :=
      Slots.count_eq_zero.mpr fun _ => rfl
    show (0 : Int) = (Lifecycle.recordTasks s.cleared.records + s.departing +
      s.servers.countP ServerTask.counted : Nat)
    rw [hzero, hdeparting, hservers]
    rfl

theorem LifecycleInv.start {s : Lifecycle} (h : LifecycleInv s) {created : Bool}
    (hhandle : HandleInv (s.start created)) : LifecycleInv (s.start created) := by
  generalize hstart : s.start created = t at hhandle ⊢
  unfold Lifecycle.start at hstart
  split at hstart
  · subst hstart
    exact ⟨hhandle, h.used, h.orphans, h.count, h.stopped⟩
  · next hguard =>
    rw [not_or, not_not, not_not] at hguard
    obtain ⟨horphans, hcount⟩ := cleared_quiet h hguard.1
    split at hstart <;> subst hstart
    · refine ⟨hhandle, fun _ hne => absurd rfl hne, horphans, ?_, nofun⟩
      show s.cleared.activeClientCount = (Lifecycle.recordTasks s.cleared.records +
        s.cleared.departing + (s.servers ++ [ServerTask.created]).countP ServerTask.counted : Nat)
      rw [List.countP_append]
      exact hcount
    · exact ⟨hhandle, fun _ hne => absurd rfl hne, horphans, hcount,
        fun _ => resourcesAbsent_iff.mpr ⟨rfl, show (-1 : Int) < 0 by decide, rfl⟩⟩

theorem LifecycleInv.stop {s : Lifecycle} (h : LifecycleInv s) (hhandle : HandleInv s.stop) :
    LifecycleInv s.stop := by
  generalize hstop : s.stop = t at hhandle ⊢
  unfold Lifecycle.stop at hstop
  split at hstop <;> subst hstop
  · exact ⟨hhandle, h.used, h.orphans, h.count, h.stopped⟩
  · exact ⟨hhandle, h.used, h.orphans, h.count, nofun⟩

theorem retireRecords_inUse (b : Broker) (i : Fin mqttMaxConnections) :
    ((Lifecycle.retireRecords b).clients i).inUse = (b.clients i).inUse := by
  unfold Lifecycle.retireRecords
  dsimp only
  split <;> rfl

/-- A failed start writes STOPPED when the resources are absent. -/
def Lifecycle.checked (s : Lifecycle) : LifecycleAct → Bool
  | .call j _ =>
    match s.calls[j]? with
    | some .startFailed | some .startStopped => s.resourcesAbsent
    | _ => true
  | _ => true

theorem LifecycleInv.call {s t : Lifecycle} {call : LifecycleCall} {calls : List LifecycleCall} (h : LifecycleInv s)
    (hs : CallStep s call t) (hhandle : HandleInv { t with calls := calls })
    (hchecked : call = .startFailed ∨ call = .startStopped → s.resourcesAbsent = true) :
    LifecycleInv { t with calls := calls } := by
  have htask : t.records.task = s.records.task := by
    rcases hs.records with hsame | hretired
    · rw [hsame]
    · rw [hretired]
      rfl
  have hinUse : ∀ i, (t.records.clients i).inUse = (s.records.clients i).inUse := by
    intro i
    rcases hs.records with hsame | hretired
    · rw [hsame]
    · rw [hretired, retireRecords_inUse]
  refine ⟨hhandle, fun i hi => ?_, hs.orphans.trans h.orphans, ?_, fun hstopped => ?_⟩
  · rw [hinUse]
    exact h.used i (htask ▸ hi)
  · have htasks : Lifecycle.recordTasks t.records = Lifecycle.recordTasks s.records := by
      unfold Lifecycle.recordTasks
      rw [htask]
    show t.activeClientCount = (Lifecycle.recordTasks t.records + t.departing +
      t.servers.countP ServerTask.counted : Nat)
    rw [hs.activeClientCount, htasks, hs.departing, hs.servers]
    exact h.count
  · obtain ⟨hlisten, hevidence⟩ := hs.stopped hstopped
    have habsent : s.resourcesAbsent = true := by
      rcases hevidence with hbefore | habsent | hfailed
      · exact h.stopped hbefore
      · exact habsent
      · exact hchecked hfailed
    obtain ⟨hnone, hneg, hzero⟩ := resourcesAbsent_iff.mp habsent
    exact resourcesAbsent_iff.mpr ⟨hs.serverTaskHandle.trans hnone, hlisten ▸ hneg,
      hs.activeClientCount.trans hzero⟩

/-- Rewriting one task of the list. -/
theorem countP_counted_set {servers : List ServerTask} {k : Nat} {task : ServerTask}
    (hk : servers[k]? = some task) (task' : ServerTask) :
    (servers.set k task').countP ServerTask.counted + task.counted.toNat =
      servers.countP ServerTask.counted + task'.counted.toNat := by
  obtain ⟨hlt, hget⟩ := List.getElem?_eq_some_iff.mp hk
  have hpos : task.counted = true → 0 < servers.countP ServerTask.counted := fun hcounted =>
    List.countP_pos_iff.mpr ⟨task, List.mem_of_getElem? hk, hcounted⟩
  rw [List.countP_set hlt, hget]
  cases hcounted : task.counted with
  | false => cases task'.counted <;> simp
  | true =>
    have hone := hpos hcounted
    cases task'.counted <;> simp <;> omega

theorem LifecycleInv.server {s t : Lifecycle} {k : Nat} {task task' : ServerTask}
    (h : LifecycleInv s) (hk : s.servers[k]? = some task) (hs : ServerStep s task t task') :
    LifecycleInv { t with servers := s.servers.set k task' } := by
  refine ⟨h.handle.server hk hs, fun i hi => ?_, hs.orphans.trans h.orphans, ?_, fun hstopped => ?_⟩
  · rcases hs.records with hsame | ⟨act, hact⟩
    · dsimp only at hi ⊢
      rw [hsame] at hi ⊢
      exact h.used i hi
    · exact used_step hact h.used i hi
  · have hcount := hs.count h.used
    have hset := countP_counted_set hk task'
    have hbefore := h.count
    have hdeparting := hs.departing
    show t.activeClientCount = (Lifecycle.recordTasks t.records + t.departing +
      (s.servers.set k task').countP ServerTask.counted : Nat)
    omega
  · obtain ⟨hnone, hneg, hzero⟩ := resourcesAbsent_iff.mp (h.stopped (hs.stopped hstopped))
    -- a task that still had its handle would be seen
    have hgone : task.live = false := by
      rw [← Bool.not_eq_true]
      intro hlive
      cases hnone.symm.trans ((h.handle k).mpr ⟨task, hk, hlive⟩)
    obtain ⟨hlisten, hsame⟩ := hs.gone hgone
    have hhandle : t.serverTaskHandle = s.serverTaskHandle := by
      rcases hs.serverTaskHandle with ⟨-, hsame⟩ | ⟨hlive, -⟩
      · exact hsame
      · cases hgone.symm.trans hlive
    exact resourcesAbsent_iff.mpr ⟨hhandle.trans hnone, hlisten ▸ hneg, hsame.trans hzero⟩

theorem LifecycleInv.step {s s' : Lifecycle} {act : LifecycleAct} (h : LifecycleInv s)
    (hs : lifecycleStep s act s') (hchecked : s.checked act = true) : LifecycleInv s' := by
  have hhandle := h.handle.step hs
  unfold lifecycleStep Lifecycle.next at hs
  cases act with
  | start created =>
    cases hs
    exact h.start hhandle
  | stop =>
    cases hs
    exact h.stop hhandle
  | call j timedOut =>
    obtain ⟨⟨t, call'⟩, hcall, rfl⟩ := Option.map_eq_some_iff.mp hs
    obtain ⟨call, hj, hnext⟩ := Option.bind_eq_some_iff.mp hcall
    refine h.call (callNext_spec hnext) hhandle fun hfailed => ?_
    unfold Lifecycle.checked at hchecked
    dsimp only at hchecked
    rw [hj] at hchecked
    rcases hfailed with rfl | rfl <;> exact hchecked
  | server k answer =>
    obtain ⟨⟨t, task'⟩, hserver, rfl⟩ := Option.map_eq_some_iff.mp hs
    obtain ⟨task, hk, hnext⟩ := Option.bind_eq_some_iff.mp hserver
    exact h.server hk (serverNext_spec hnext)
  | records act =>
    dsimp only at hs
    split at hs
    · cases hs
    · next hact =>
      obtain ⟨b, hb, rfl⟩ := Option.map_eq_some_iff.mp hs
      refine ⟨hhandle, used_step hb h.used, h.orphans, ?_, h.stopped⟩
      have hother : Lifecycle.serverAct act = false := Bool.eq_false_iff.mpr hact
      have htasks := Lifecycle.recordTasks_next hb (by rintro _ _ _ _ rfl; cases hother)
      rw [← Lifecycle.closes_eq hother] at htasks
      have hbefore := h.count
      dsimp only
      omega
  | orphan i =>
    dsimp only at hs
    rw [h.orphans, if_neg fun hguard => List.not_mem_nil hguard.1] at hs
    cases hs
  | depart =>
    dsimp only at hs
    split at hs
    · next hpos =>
      cases hs
      have hbefore := h.count
      refine ⟨hhandle, h.used, h.orphans, ?_, fun hstopped => ?_⟩
      · dsimp only
        omega
      · obtain ⟨-, -, hzero, -⟩ := h.quiet hstopped
        omega
    · cases hs
  | notify =>
    dsimp only at hs
    split at hs <;> cases hs
    exact ⟨hhandle, h.used, h.orphans, h.count, h.stopped⟩
  | retain topic payload =>
    dsimp only at hs
    split at hs <;> cases hs
    exact ⟨hhandle, h.used, h.orphans, h.count, h.stopped⟩

/-- **Convergence**, in a run in which a start that has failed or timed out writes STOPPED
only when the resources are absent. -/
theorem stopped_converged {directory : List MachineEntry} {ms : List LifecycleMove}
    (h : IsRun lifecycleStep (.init directory) ms)
    (hchecked : ∀ v ∈ ms, v.pre.checked v.ev = true) :
    (∀ v ∈ ms, v.post.state = .stopped → v.post.serverTaskHandle = none ∧ v.post.listenSock < 0 ∧
      v.post.activeClientCount = 0) ∧
    ∀ v ∈ ms, v.pre.clears v.ev = true → v.pre.clientTasks = 0 := by
  have hinv := (h.inv_of (LifecycleInv.init directory) hchecked
    fun v hv hs hmet => hv.step hs hmet).1
  refine ⟨fun v hv hstopped => resourcesAbsent_iff.mp ((hinv v hv).2.stopped hstopped),
    fun v hv hclears => ?_⟩
  have hpre := (hinv v hv).1
  have hstopped : v.pre.state = .stopped := by
    unfold Lifecycle.clears at hclears
    split at hclears
    · rw [Bool.and_eq_true] at hclears
      exact of_decide_eq_true hclears.1
    · cases hclears
  obtain ⟨-, htasks, hdeparting, -⟩ := hpre.quiet hstopped
  unfold Lifecycle.clientTasks
  rw [htasks, hpre.orphans, hdeparting]
  rfl

/-! ### Two starts -/

/-- The server task publishes RUNNING and gets a client. -/
def serverGetsClient (k : Nat) : List LifecycleAct :=
  [.go, .go, .go, .accept true, .go, .go, .alloc 54 1 machineInterfaceSoftap false,
    .create true].map (.server k)

def serverLeaves (k : Nat) : List LifecycleAct := [.go, .go, .go].map (.server k)

/-- A start without a socket, a start, a stop that waits for the client, and a start again. -/
def startStop : List LifecycleAct :=
  [.start true, .server 0 (.listen (-1)), .server 0 .go, .server 0 .go, .call 0 false,
    .call 0 false, .start true, .server 1 (.listen 3)] ++
  serverGetsClient 1 ++ [.call 1 false, .stop, .call 2 false] ++ serverLeaves 1 ++
  [.call 2 false, .call 2 false, .records (.leave 0), .records (.close 0), .depart, .notify,
    .call 2 false, .call 2 false, .start true]

theorem stopped_converged_restart :
    let ms := lifecycleTrace (.init []) startStop
    ((∀ v ∈ ms, v.post.state = .stopped → v.post.serverTaskHandle = none ∧
        v.post.listenSock < 0 ∧ v.post.activeClientCount = 0) ∧
      ∀ v ∈ ms, v.pre.clears v.ev = true → v.pre.clientTasks = 0) ∧
      (final (.init []) ms).calls =
        [.returned espFail, .returned espOk, .returned espOk, .startWaiting] := by
  intro ms
  exact ⟨stopped_converged (isRun_lifecycleTrace _ _) (by decide +kernel), by decide +kernel⟩

/-- The start times out as its server task gets to run and accepts a client. -/
def startTimesOut : List LifecycleAct :=
  [.start true, .server 0 (.listen 3), .call 0 true] ++ serverGetsClient 0 ++
  [.call 0 false] ++ serverLeaves 0 ++ [.call 0 false, .call 0 false]

/-- The broker is STOPPED with an active client, and the next start clears its tables. -/
theorem stopped_with_client :
    (¬ ∀ (directory : List MachineEntry) (ms : List LifecycleMove),
      IsRun lifecycleStep (.init directory) ms → ∀ v ∈ ms, v.post.state = .stopped →
        v.post.serverTaskHandle = none ∧ v.post.listenSock < 0 ∧ v.post.activeClientCount = 0) ∧
    ¬ ∀ (directory : List MachineEntry) (ms : List LifecycleMove),
      IsRun lifecycleStep (.init directory) ms → ∀ v ∈ ms, v.pre.clears v.ev = true →
        v.pre.clientTasks = 0 := by
  constructor
  · intro h
    have hbad : ¬ ∀ v ∈ lifecycleTrace (.init []) startTimesOut, v.post.state = .stopped →
        v.post.serverTaskHandle = none ∧ v.post.listenSock < 0 ∧ v.post.activeClientCount = 0 := by
      decide +kernel
    exact hbad (h [] _ (isRun_lifecycleTrace _ _))
  · intro h
    have hbad : ¬ ∀ v ∈ lifecycleTrace (.init []) (startTimesOut ++ [.start true]),
        v.pre.clears v.ev = true → v.pre.clientTasks = 0 := by
      decide +kernel
    exact hbad (h [] _ (isRun_lifecycleTrace _ _))

end Argus
