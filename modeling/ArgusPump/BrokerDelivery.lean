import ArgusPump.BrokerShutdown
import ArgusPump.MqttSubscriptions

/-!
# Delivery to subscribers

Publications of `main/argus_mqtt_broker.c` and the replay of retained values inside a
SUBSCRIBE.  Both copy what they need under the lock and send after they have given it back:
the descriptors of a publication, the topic and payload of a replay.

    a descriptor still to be written belongs to the connection it was collected for,
      unless it is closed in between                                 (delivery_isolated)

Left out: a PUBLISH with the retain flag, which the policy refuses.
-/

namespace Argus

open Interact

abbrev mqttMaxRetained : Nat := 40
def mqttMaxSubsPerClient : Nat := 8

/-- A publication under way. -/
structure SendJob where
  /-- The client task that publishes, `none` for the broker's own publications. -/
  task : Option (Fin mqttMaxConnections)
  /-- The descriptors still to be written, with the connections they were collected for. -/
  sockets : List (Int × Nat)
  topic : Bytes
  payload : Bytes
  retain : Bool
deriving DecidableEq

/-- The replay of the retained values inside a SUBSCRIBE. -/
structure Replay where
  connectionId : UInt64
  /-- The filters and the entries still to be looked at. -/
  todo : List (Bytes × Fin mqttMaxRetained)
  /-- An entry that is copied and not sent yet. -/
  copy : Option (Bytes × Bytes)
deriving DecidableEq

structure Delivery where
  sockets : Sockets
  subscriptions : Fin mqttMaxClients → List Bytes
  retained : Fin mqttMaxRetained → Option (Bytes × Bytes)
  jobs : List SendJob
  replays : Fin mqttMaxConnections → Option Replay
  /-- What the connections have got, the latest first. -/
  received : List (Nat × Bytes × Bytes)

inductive DeliveryAct
  | sockets (act : SocketAct)
  /-- `argus_mqtt_broker_publish` up to where it gives the lock back. -/
  | publish (topic payload : Bytes) (retain : Bool)
  /-- An accepted PUBLISH of a client, up to the same point. -/
  | forward (i : Fin mqttMaxConnections) (topic payload : Bytes)
  /-- The next send of a publication. -/
  | send (j : Nat) (ok : Bool)
  /-- An accepted SUBSCRIBE up to its SUBACK. -/
  | subscribe (i : Fin mqttMaxConnections) (filters : List Bytes)
  /-- The replay looks at its next entry, or ends. -/
  | replay (i : Fin mqttMaxConnections)
  | replaySend (i : Fin mqttMaxConnections) (ok : Bool)
deriving DecidableEq

namespace Delivery

/-- After `argus_mqtt_broker_start`. -/
def start (nextConnectionId : UInt64) (directory : List MachineEntry) : Delivery :=
  ⟨.start nextConnectionId directory, fun _ => [], fun _ => none, [], fun _ => none, []⟩

def client (s : Delivery) (i : Fin mqttMaxConnections) : MqttClient := s.sockets.broker.clients i

/-- `argus_mqtt_store_retained_locked`, `none` where the capacity is exhausted. -/
def storeRetained (retained : Fin mqttMaxRetained → Option (Bytes × Bytes)) (topic payload : Bytes) :
    Option (Fin mqttMaxRetained → Option (Bytes × Bytes)) :=
  let slot := ((List.finRange mqttMaxRetained).find? fun r =>
    (retained r).any fun e => e.1 = topic).or (Slots.firstFree Option.isSome retained)
  slot.map fun r => Function.update retained r (some (topic, payload))

/-- The descriptor of a record with a subscription to the topic. -/
def subscriber (s : Delivery) (topic : Bytes) (i : Fin mqttMaxConnections) : Option (Int × Nat) :=
  let c := s.client i
  match c.sessionSlot with
  | none => none
  | some k =>
    if c.inUse ∧ c.connected ∧ 0 ≤ c.sock ∧ (s.subscriptions k).any (topicMatches · topic) then
      some (c.sock, s.sockets.connection i)
    else none

/-- `argus_mqtt_collect_subscribers_locked`. -/
def collectSubscribers (s : Delivery) (topic : Bytes) : List (Int × Nat) :=
  ((List.finRange mqttMaxConnections).filterMap (s.subscriber topic)).take mqttMaxClients

/-- The task is in a replay or sends a publication. -/
def busy (s : Delivery) (i : Fin mqttMaxConnections) : Bool :=
  (s.replays i).isSome || s.jobs.any fun job => job.task = some i && !job.sockets.isEmpty

/-- A task takes its next packet when it is done with the one before. -/
def allows (s : Delivery) : SocketAct → Bool
  | .records (.connect i _) | .records (.leave i) | .records (.close i) => !s.busy i
  | _ => true

/-- A session slot is cleared when it is claimed and when it is released. -/
def subscriptionsAfter (s : Delivery) (b : Broker) (k : Fin mqttMaxClients) : List Bytes :=
  if s.sockets.broker.sessions k ∧ b.sessions k then s.subscriptions k else []

/-- A send that goes through reaches whoever the descriptor is open for. -/
def write (s : Delivery) (sock : Int) (topic payload : Bytes) (ok : Bool) : Option Delivery :=
  if ok then
    (s.sockets.owner sock).map fun n => { s with received := (n, topic, payload) :: s.received }
  else some s

def next (s : Delivery) : DeliveryAct → Option Delivery
  | .sockets act =>
    if s.allows act then
      (s.sockets.next act).map fun w =>
        { s with sockets := w, subscriptions := s.subscriptionsAfter w.broker }
    else none
  | .publish topic payload retain =>
    if topic.length ≥ mqttBrokerTopicCap ∨ payload.length ≥ mqttBrokerPayloadCap ∨
        s.sockets.stopping then none
    else
      match if retain then storeRetained s.retained topic payload else some s.retained with
      | none => some s
      | some retained =>
        some { s with
          retained := retained
          jobs := s.jobs ++ [⟨none, s.collectSubscribers topic, topic, payload, retain⟩] }
  | .forward i topic payload =>
    if s.sockets.broker.task i = .serving ∧ ¬ s.busy i ∧
        (s.client i).admitted (s.client i).connectionId then
      some { s with
        jobs := s.jobs ++ [⟨some i, s.collectSubscribers topic, topic, payload, false⟩] }
    else none
  | .send j ok =>
    match s.jobs[j]? with
    | some ⟨task, (sock, _) :: rest, topic, payload, retain⟩ =>
      (s.write sock topic payload ok).map fun t =>
        { t with jobs := s.jobs.set j ⟨task, rest, topic, payload, retain⟩ }
    | _ => none
  | .subscribe i filters =>
    let c := s.client i
    match c.sessionSlot with
    | some k =>
      if s.sockets.broker.task i = .serving ∧ ¬ s.busy i ∧ c.admitted c.connectionId ∧
          (s.subscriptions k).length + filters.length ≤ mqttMaxSubsPerClient then
        some { s with
          subscriptions := Function.update s.subscriptions k (s.subscriptions k ++ filters)
          replays := Function.update s.replays i (some ⟨c.connectionId,
            filters.flatMap fun f => (List.finRange mqttMaxRetained).map (f, ·), none⟩) }
      else none
    | none => none
  | .replay i =>
    match s.replays i with
    | some ⟨connectionId, (f, r) :: todo, none⟩ =>
      some { s with
        replays := Function.update s.replays i (some ⟨connectionId, todo,
          (s.retained r).filter fun e => topicMatches f e.1⟩) }
    | some ⟨_, [], none⟩ => some { s with replays := Function.update s.replays i none }
    | _ => none
  | .replaySend i ok =>
    match s.replays i with
    | some ⟨connectionId, todo, some (topic, payload)⟩ =>
      if (s.client i).admitted connectionId then
        (s.write (s.client i).sock topic payload ok).map fun t =>
          { t with replays := Function.update s.replays i (some ⟨connectionId, todo, none⟩) }
      else
        -- the handler fails and the task leaves
        (s.sockets.next (.records (.leave i))).map fun w =>
          { s with sockets := w, replays := Function.update s.replays i none }
    | _ => none

end Delivery

def deliveryStep (s : Delivery) (act : DeliveryAct) (s' : Delivery) : Prop := s.next act = some s'

abbrev DeliveryMove := Move Delivery DeliveryAct

/-- The moves on a list of acts, up to the first that has to wait. -/
def deliveryTrace : Delivery → List DeliveryAct → List DeliveryMove :=
  traceWhile fun s act => (s.next act).map fun s' => (act, s')

theorem isRun_deliveryTrace (s : Delivery) (acts : List DeliveryAct) :
    IsRun deliveryStep s (deliveryTrace s acts) := by
  refine isRun_traceWhile (fun s act ev s' h => ?_) s acts
  obtain ⟨t, hnext, heq⟩ := Option.map_eq_some_iff.mp h
  cases heq
  exact hnext

/-! ## What a step can do -/

inductive DeliveryCase (s : Delivery) : DeliveryAct → Delivery → Prop
  | sockets (act : SocketAct) (w : Sockets) (hallows : s.allows act = true)
      (hs : socketStep s.sockets act w) :
      DeliveryCase s (.sockets act)
        { s with sockets := w, subscriptions := s.subscriptionsAfter w.broker }
  | full (topic payload : Bytes) : DeliveryCase s (.publish topic payload true) s
  | retain (topic payload : Bytes) (retained : Fin mqttMaxRetained → Option (Bytes × Bytes))
      (hstore : Delivery.storeRetained s.retained topic payload = some retained) :
      DeliveryCase s (.publish topic payload true)
        { s with
          retained := retained
          jobs := s.jobs ++ [⟨none, s.collectSubscribers topic, topic, payload, true⟩] }
  | publish (topic payload : Bytes) :
      DeliveryCase s (.publish topic payload false)
        { s with jobs := s.jobs ++ [⟨none, s.collectSubscribers topic, topic, payload, false⟩] }
  | forward (i : Fin mqttMaxConnections) (topic payload : Bytes) :
      DeliveryCase s (.forward i topic payload)
        { s with jobs := s.jobs ++ [⟨some i, s.collectSubscribers topic, topic, payload, false⟩] }
  | send (j : Nat) (ok : Bool) (job : SendJob) (sock : Int) (n : Nat) (rest : List (Int × Nat))
      (t : Delivery) (hjob : s.jobs[j]? = some job) (hsockets : job.sockets = (sock, n) :: rest)
      (hwrite : s.write sock job.topic job.payload ok = some t) :
      DeliveryCase s (.send j ok) { t with jobs := s.jobs.set j { job with sockets := rest } }
  | subscribe (i : Fin mqttMaxConnections) (filters : List Bytes) (k : Fin mqttMaxClients)
      (hslot : (s.client i).sessionSlot = some k) (htask : s.sockets.broker.task i = .serving)
      (hidle : s.replays i = none)
      (hadmitted : (s.client i).admitted (s.client i).connectionId = true) :
      DeliveryCase s (.subscribe i filters)
        { s with
          subscriptions := Function.update s.subscriptions k (s.subscriptions k ++ filters)
          replays := Function.update s.replays i (some ⟨(s.client i).connectionId,
            filters.flatMap fun f => (List.finRange mqttMaxRetained).map (f, ·), none⟩) }
  | look (i : Fin mqttMaxConnections) (connectionId : UInt64) (f : Bytes) (r : Fin mqttMaxRetained)
      (todo : List (Bytes × Fin mqttMaxRetained))
      (hreplay : s.replays i = some ⟨connectionId, (f, r) :: todo, none⟩) :
      DeliveryCase s (.replay i)
        { s with
          replays := Function.update s.replays i (some ⟨connectionId, todo,
            (s.retained r).filter fun e => topicMatches f e.1⟩) }
  | finish (i : Fin mqttMaxConnections) (connectionId : UInt64)
      (hreplay : s.replays i = some ⟨connectionId, [], none⟩) :
      DeliveryCase s (.replay i) { s with replays := Function.update s.replays i none }
  | replaySend (i : Fin mqttMaxConnections) (ok : Bool) (connectionId : UInt64)
      (todo : List (Bytes × Fin mqttMaxRetained)) (topic payload : Bytes) (t : Delivery)
      (hreplay : s.replays i = some ⟨connectionId, todo, some (topic, payload)⟩)
      (hadmitted : (s.client i).admitted connectionId = true)
      (hwrite : s.write (s.client i).sock topic payload ok = some t) :
      DeliveryCase s (.replaySend i ok)
        { t with replays := Function.update s.replays i (some ⟨connectionId, todo, none⟩) }
  | abort (i : Fin mqttMaxConnections) (ok : Bool) (rp : Replay) (w : Sockets)
      (hreplay : s.replays i = some rp) (hadmitted : (s.client i).admitted rp.connectionId = false)
      (hs : socketStep s.sockets (.records (.leave i)) w) :
      DeliveryCase s (.replaySend i ok)
        { s with sockets := w, replays := Function.update s.replays i none }

theorem deliveryStep_case {s s' : Delivery} {act : DeliveryAct} (h : deliveryStep s act s') :
    DeliveryCase s act s' := by
  unfold deliveryStep at h
  cases act with
  | sockets act =>
    dsimp only [Delivery.next] at h
    split at h
    · next hallows =>
      obtain ⟨w, hs, rfl⟩ := Option.map_eq_some_iff.mp h
      exact .sockets act w hallows hs
    · cases h
  | publish topic payload retain =>
    dsimp only [Delivery.next] at h
    split at h
    · cases h
    · cases retain with
      | true =>
        split at h
        · cases h
          exact .full topic payload
        · next retained hstore =>
          cases h
          exact .retain topic payload retained hstore
      | false =>
        split at h
        · next hnone => cases hnone
        · next retained hstore =>
          cases hstore
          cases h
          exact .publish topic payload
  | forward i topic payload =>
    dsimp only [Delivery.next] at h
    split at h
    · cases h
      exact .forward i topic payload
    · cases h
  | send j ok =>
    dsimp only [Delivery.next] at h
    split at h
    · next task sock n rest topic payload retain hjob =>
      obtain ⟨t, hwrite, rfl⟩ := Option.map_eq_some_iff.mp h
      exact .send j ok ⟨task, (sock, n) :: rest, topic, payload, retain⟩ sock n rest t hjob rfl hwrite
    · cases h
  | subscribe i filters =>
    dsimp only [Delivery.next] at h
    split at h
    · next k hslot =>
      split at h
      · next hguard =>
        cases h
        obtain ⟨htask, hbusy, hadmitted, -⟩ := hguard
        refine .subscribe i filters k hslot htask ?_ hadmitted
        unfold Delivery.busy at hbusy
        simp only [Bool.or_eq_true, not_or] at hbusy
        simpa using hbusy.1
      · cases h
    · cases h
  | replay i =>
    dsimp only [Delivery.next] at h
    split at h
    · next connectionId f r todo hreplay =>
      cases h
      exact .look i connectionId f r todo hreplay
    · next connectionId hreplay =>
      cases h
      exact .finish i connectionId hreplay
    · cases h
  | replaySend i ok =>
    dsimp only [Delivery.next] at h
    split at h
    · next connectionId todo topic payload hreplay =>
      split at h
      · next hadmitted =>
        obtain ⟨t, hwrite, rfl⟩ := Option.map_eq_some_iff.mp h
        exact .replaySend i ok connectionId todo topic payload t hreplay hadmitted hwrite
      · next hadmitted =>
        obtain ⟨w, hs, rfl⟩ := Option.map_eq_some_iff.mp h
        exact .abort i ok _ w hreplay (Bool.eq_false_iff.mpr hadmitted) hs
    · cases h

theorem write_spec {s t : Delivery} {sock : Int} {topic payload : Bytes} {ok : Bool}
    (h : s.write sock topic payload ok = some t) :
    (ok = false ∧ t = s) ∨ ∃ n, ok = true ∧ s.sockets.owner sock = some n ∧
      t = { s with received := (n, topic, payload) :: s.received } := by
  unfold Delivery.write at h
  cases ok with
  | false =>
    cases h
    exact .inl ⟨rfl, rfl⟩
  | true =>
    obtain ⟨n, howner, rfl⟩ := Option.map_eq_some_iff.mp h
    exact .inr ⟨n, rfl, howner, rfl⟩

theorem write_same {s t : Delivery} {sock : Int} {topic payload : Bytes} {ok : Bool}
    (h : s.write sock topic payload ok = some t) :
    t.sockets = s.sockets ∧ t.jobs = s.jobs ∧ t.retained = s.retained ∧
      t.subscriptions = s.subscriptions ∧ t.replays = s.replays := by
  rcases write_spec h with ⟨-, rfl⟩ | ⟨n, -, -, rfl⟩ <;> exact ⟨rfl, rfl, rfl, rfl, rfl⟩

/-! ## Isolation -/

/-- The descriptor a step closes. -/
def SocketAct.closes (s : Sockets) : SocketAct → Option Int
  | .close sock => some sock
  | .serverClose => match s.server with | .closing sock => some sock | _ => none
  | _ => none

/-- An open descriptor stays with its connection until it is closed. -/
theorem socketStep_owner {s s' : Sockets} {act : SocketAct} (h : socketStep s act s') {sock : Int}
    (hopen : s.owner sock ≠ none) (hcloses : act.closes s ≠ some sock) :
    s'.owner sock = s.owner sock := by
  unfold socketStep Sockets.next at h
  cases act with
  | records ract =>
    obtain ⟨b, hb, hafter⟩ := Option.bind_eq_some_iff.mp h
    rw [(recordsAfter_step hb hafter).owner]
  | check =>
    dsimp only at h
    split at h <;> cases h <;> rfl
  | accept fd =>
    dsimp only at h
    split_ifs at h with hwaiting hneg hfree
    · cases h
      rfl
    · cases h
      refine Function.update_of_ne ?_ _ _
      rintro rfl
      exact hopen (not_not.mp hfree)
  | serverClose =>
    dsimp only at h
    split at h
    · next fd hphase =>
      cases h
      refine Function.update_of_ne ?_ _ _
      rintro rfl
      refine hcloses ?_
      unfold SocketAct.closes
      dsimp only
      rw [hphase]
    · cases h
  | stop =>
    cases h
    rfl
  | retire =>
    dsimp only at h
    split at h <;> cases h
    rfl
  | close fd =>
    dsimp only at h
    split at h <;> cases h
    refine Function.update_of_ne ?_ _ _
    rintro rfl
    exact hcloses rfl

/-- A descriptor is not closed while a publication still has to write to it. -/
def ClosesSettled (v : DeliveryMove) : Prop :=
  ∀ act sock, v.ev = .sockets act → act.closes v.pre.sockets = some sock →
    ∀ job ∈ v.pre.jobs, ∀ e ∈ job.sockets, e.1 ≠ sock

instance (v : DeliveryMove) : Decidable (ClosesSettled v) :=
  decidable_of_iff
    ((match v.ev with
      | .sockets act => (act.closes v.pre.sockets).all fun sock =>
          v.pre.jobs.all fun job => job.sockets.all fun e => e.1 ≠ sock
      | _ => true) = true) <| by
    unfold ClosesSettled
    split
    · next act hev =>
      simp only [Option.all_eq_true, List.all_eq_true, decide_eq_true_eq, hev,
        DeliveryAct.sockets.injEq]
      exact ⟨fun h _ sock hact hcloses => h sock (hact ▸ hcloses), fun h sock => h act sock rfl⟩
    · next hev => exact ⟨fun _ act _ h => absurd h (hev act), fun _ => rfl⟩

structure IsolationInv (s : Delivery) : Prop where
  sockets : ShutdownInv s.sockets
  owned : ∀ job ∈ s.jobs, ∀ e ∈ job.sockets, s.sockets.owner e.1 = some e.2

/-- What is collected is open for the connection it is collected for. -/
theorem collectSubscribers_owned {s : Delivery} (h : ShutdownInv s.sockets) {topic : Bytes}
    {e : Int × Nat} (he : e ∈ s.collectSubscribers topic) : s.sockets.owner e.1 = some e.2 := by
  obtain ⟨i, -, hi⟩ := List.mem_filterMap.mp (List.mem_of_mem_take he)
  unfold Delivery.subscriber at hi
  dsimp only at hi
  split at hi
  · cases hi
  · split at hi
    · next hguard =>
      cases hi
      exact h.descriptors.held i hguard.1 hguard.2.2.1
    · cases hi

theorem IsolationInv.start (nextConnectionId : UInt64) (directory : List MachineEntry) :
    IsolationInv (.start nextConnectionId directory) :=
  ⟨.start _ _, fun _ hjob => absurd hjob List.not_mem_nil⟩

theorem IsolationInv.step {s s' : Delivery} {act : DeliveryAct} (h : IsolationInv s)
    (hs : deliveryStep s act s') (hmet : ClosesSettled ⟨s, act, s'⟩) : IsolationInv s' := by
  have hnew : ∀ (task : Option (Fin mqttMaxConnections)) (topic payload : Bytes) (retain : Bool),
      ∀ job ∈ s.jobs ++ [⟨task, s.collectSubscribers topic, topic, payload, retain⟩],
        ∀ e ∈ job.sockets, s.sockets.owner e.1 = some e.2 := by
    intro task topic payload retain job hjob e he
    rcases List.mem_append.mp hjob with hold | hnew
    · exact h.owned job hold e he
    · rw [List.mem_singleton.mp hnew] at he
      exact collectSubscribers_owned h.sockets he
  cases deliveryStep_case hs with
  | sockets act w hallows hw =>
    refine ⟨h.sockets.step hw, fun job hjob e he => ?_⟩
    have howned := h.owned job hjob e he
    rw [← howned]
    refine socketStep_owner hw (by rw [howned]; nofun) fun hcloses => ?_
    exact hmet act e.1 rfl hcloses job hjob e he rfl
  | full => exact h
  | retain topic payload => exact ⟨h.sockets, hnew _ _ _ _⟩
  | publish topic payload => exact ⟨h.sockets, hnew _ _ _ _⟩
  | forward i topic payload => exact ⟨h.sockets, hnew _ _ _ _⟩
  | send j ok job sock n rest t hjob hsockets hwrite =>
    obtain ⟨hsame, -⟩ := write_same hwrite
    refine ⟨hsame ▸ h.sockets, fun job' hjob' e he => ?_⟩
    dsimp only at hjob' ⊢
    rw [hsame]
    rcases List.mem_or_eq_of_mem_set hjob' with hold | rfl
    · exact h.owned job' hold e he
    · refine h.owned job (List.mem_of_getElem? hjob) e ?_
      rw [hsockets]
      exact List.mem_cons_of_mem _ he
  | subscribe => exact ⟨h.sockets, h.owned⟩
  | look => exact ⟨h.sockets, h.owned⟩
  | finish => exact ⟨h.sockets, h.owned⟩
  | replaySend i ok connectionId todo topic payload t hreplay hadmitted hwrite =>
    obtain ⟨hsame, hjobs, -⟩ := write_same hwrite
    refine ⟨hsame ▸ h.sockets, fun job hjob => ?_⟩
    dsimp only at hjob ⊢
    rw [hjobs] at hjob
    rw [hsame]
    exact h.owned job hjob
  | abort i ok rp w hreplay hadmitted hw =>
    refine ⟨h.sockets.step hw, fun job hjob e he => ?_⟩
    have howned := h.owned job hjob e he
    rw [← howned]
    exact socketStep_owner hw (by rw [howned]; nofun) nofun

/-- A send goes to the connection the message was collected for. -/
def SendsHome (v : DeliveryMove) : Prop :=
  ∀ j ok job sock n rest, v.ev = .send j ok → v.pre.jobs[j]? = some job →
    job.sockets = (sock, n) :: rest → v.pre.sockets.owner sock = some n

/-- **Isolation**, in a run in which no descriptor is closed while a publication still has to
write to it. -/
theorem delivery_isolated {nextConnectionId : UInt64} {directory : List MachineEntry}
    {ms : List DeliveryMove} (h : IsRun deliveryStep (.start nextConnectionId directory) ms)
    (hmet : ∀ v ∈ ms, ClosesSettled v) : ∀ v ∈ ms, SendsHome v := by
  have hinv := (h.inv_of (IsolationInv.start nextConnectionId directory) hmet
    fun v hv hs hmet => hv.step hs hmet).1
  intro v hv j ok job sock n rest _ hjob hsockets
  refine (hinv v hv).1.owned job (List.mem_of_getElem? hjob) (sock, n) ?_
  rw [hsockets]
  exact List.mem_cons_self

/-! ### A panel -/

def unitFilter : Bytes := makeTopic (unitTopics.category (txt "state")) [hashMark]

/-- The panel connects and subscribes to the state of the unit. -/
def panelSubscribes : List DeliveryAct :=
  panelSocket.map .sockets ++ .subscribe 0 [unitFilter] :: List.replicate 41 (.replay 0)

def panelDelivery : Delivery := .start 0 [panelEntry]

def deliveryAt (acts : List DeliveryAct) : Delivery :=
  final panelDelivery (deliveryTrace panelDelivery acts)

theorem isRun_deliveryAt (acts : List DeliveryAct) {act : DeliveryAct} {s' : Delivery}
    (h : (deliveryAt acts).next act = some s') :
    IsRun deliveryStep panelDelivery
      (deliveryTrace panelDelivery acts ++ [⟨deliveryAt acts, act, s'⟩]) :=
  (isRun_append _ _ _).mpr ⟨isRun_deliveryTrace _ _, rfl, h, trivial⟩

def panelPublish : DeliveryAct := .publish (unitTopics.topic .stateEstop) (txt "LATCHED") true

/-- The panel leaves after the send. -/
theorem delivery_isolated_panel :
    let ms := deliveryTrace panelDelivery (panelSubscribes ++ [panelPublish, .send 0 true,
      .sockets (.records (.leave 0)), .sockets (.records (.close 0)), .sockets (.close 54)])
    (∀ v ∈ ms, SendsHome v) ∧ ms.length = 56 ∧ (final panelDelivery ms).received =
      [(1, unitTopics.topic .stateEstop, txt "LATCHED")] := by
  intro ms
  exact ⟨delivery_isolated (isRun_deliveryTrace _ _ : IsRun deliveryStep panelDelivery ms)
    (by decide +kernel), by decide +kernel, by decide +kernel⟩

/-- The panel leaves before the send; its descriptor is the next one `accept` returns. -/
def panelReused : List DeliveryAct :=
  panelSubscribes ++ panelPublish ::
    [.records (.leave 0), .records (.close 0), .close 54, .check, .accept 54, .check,
      .records (.accept 54 2 machineInterfaceSoftap false)].map .sockets

/-- The message goes to a connection that has not authenticated. -/
theorem delivery_to_another :
    ¬ ∀ (nextConnectionId : UInt64) (directory : List MachineEntry) (ms : List DeliveryMove),
      IsRun deliveryStep (.start nextConnectionId directory) ms → ∀ v ∈ ms, SendsHome v := by
  intro h
  have hsends : ((deliveryAt panelReused).next (.send 0 true)).isSome = true := by decide +kernel
  have hjob : (deliveryAt panelReused).jobs[0]?.map SendJob.sockets = some [(54, 1)] := by
    decide +kernel
  have howner : (deliveryAt panelReused).sockets.owner 54 = some 2 := by decide +kernel
  obtain ⟨s', hnext⟩ := Option.isSome_iff_exists.mp hsends
  obtain ⟨job, hjob, hsockets⟩ := Option.map_eq_some_iff.mp hjob
  have hrun := isRun_deliveryAt panelReused hnext
  generalize deliveryAt panelReused = s at *
  have hhome := h 0 [panelEntry] _ hrun ⟨s, .send 0 true, s'⟩ (by simp)
  cases (hhome 0 true job 54 1 [] rfl hjob hsockets).symm.trans howner

end Argus
