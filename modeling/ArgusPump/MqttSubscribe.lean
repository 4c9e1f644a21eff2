import ArgusPump.BrokerRetained
import ArgusPump.MqttGate

/-!
# SUBSCRIBE

`argus_mqtt_handle_subscribe` of `main/argus_mqtt_broker.c` as a program over what it asks of
the records, the policy and the directory.  Before each of its calls the other tasks of the
broker take any steps.

    a packet adds all of its filters to the session or none            (subscribe_atomic)

A session's filters are a list: what is repeated takes another entry.
-/

namespace Argus

open Interact

/-! ## The packet -/

/-- The loop over the filters, with room for so many more. -/
def parseFilters : Nat → Bytes → Except EspErr (List Bytes)
  | _, [] => .ok []
  | 0, _ :: _ => .error espErrInvalidArg
  | room + 1, b :: packet =>
    match readString (b :: packet) mqttBrokerTopicCap with
    | none => .error espErrInvalidArg
    | some (filter, rest) =>
      if filter = [] then .error espErrInvalidArg
      else
        match rest with
        | [] => .error espErrInvalidArg
        | requestedQos :: rest =>
          if requestedQos > 1 then .error espErrNotSupported
          else (parseFilters room rest).map (filter :: ·)

/-- The parsing part of `argus_mqtt_handle_subscribe`: the packet id and the filters. -/
def parseSubscribe (packet : Bytes) : Except EspErr (UInt16 × List Bytes) :=
  match readU16 packet with
  | none => .error espErrInvalidArg
  | some (packetId, rest) =>
    match parseFilters mqttMaxSubsPerClient rest with
    | .error err => .error err
    | .ok filters => if filters = [] then .error espErrInvalidArg else .ok (packetId, filters)

/-- A SUBACK with one return code for each of `count` filters. -/
def suback (packetId : UInt16) (count : Nat) (code : UInt8) : Bytes :=
  [0x90, (2 + count).toUInt8, (packetId >>> 8).toUInt8, (packetId &&& 0xFF).toUInt8] ++
    List.replicate count code

/-! ## The handler -/

inductive SubscribeCall
  | calloc
  /-- `argus_mqtt_client_info_if_admitted`. -/
  | infoIfAdmitted
  | subscribePolicy (info : ClientInfo) (filter : Bytes)
  | revalidate (info : ClientInfo)
  /-- The locked append, if the client is admitted and the session has room. -/
  | append (connectionId : UInt64) (filters : List Bytes)
  /-- `send` of a SUBACK: whether all of it went out. -/
  | sendSuback (packet : Bytes)
  /-- The locked copy of a retained entry that the filter matches. -/
  | copyRetained (filter : Bytes) (r : Fin mqttMaxRetained)
  | sendPublish (topic payload : Bytes)

abbrev SubscribeCall.Answer : SubscribeCall → Type
  | .infoIfAdmitted => Option ClientInfo
  | .copyRetained .. => Option (Bytes × Bytes)
  | .calloc | .subscribePolicy .. | .revalidate _ | .append .. | .sendSuback _
  | .sendPublish .. => Bool

abbrev SubscribeProg := Prog SubscribeCall SubscribeCall.Answer

/-- Whether the policy allows every filter; it is asked up to the first it denies. -/
def policyAllows (info : ClientInfo) : List Bytes → SubscribeProg Bool
  | [] => .ret true
  | filter :: filters =>
    .ask (.subscribePolicy info filter) fun allowed =>
    if ¬ allowed then .ret false else policyAllows info filters

/-- The replay of the retained values after the SUBACK. -/
def replayRetained (connectionId : UInt64) : List (Bytes × Fin mqttMaxRetained) →
    SubscribeProg EspErr
  | [] => .ret espOk
  | (filter, r) :: todo =>
    .ask (.copyRetained filter r) fun
      | none => replayRetained connectionId todo
      | some (topic, payload) =>
        .ask .infoIfAdmitted fun
          | none => .ret espErrNotAllowed
          | some current =>
            if current.connectionId ≠ connectionId then .ret espErrNotAllowed
            else .ask (.sendPublish topic payload) fun _ => replayRetained connectionId todo

/-- What a packet ends with: the result and the SUBACK it was answered with. -/
structure SubscribeResult where
  err : EspErr
  suback : Option Bytes
deriving DecidableEq

/-- `argus_mqtt_handle_subscribe` once the policy has allowed the filters. -/
def grantFilters (packetId : UInt16) (filters : List Bytes) : SubscribeProg SubscribeResult :=
  .ask .infoIfAdmitted fun
    | none => .ret ⟨espErrNotAllowed, none⟩
    | some info =>
      .ask (.revalidate info) fun ok =>
      if ¬ ok then .ret ⟨espErrNotAllowed, none⟩
      else
        .ask (.append info.connectionId filters) fun capacity =>
        if ¬ capacity then .ret ⟨espErrNoMem, none⟩
        else
          let granted := suback packetId filters.length 0x00
          .ask (.sendSuback granted) fun sent =>
          if ¬ sent then .ret ⟨espFail, some granted⟩
          else
            (fun err => ⟨err, some granted⟩) <$> replayRetained info.connectionId
              (filters.flatMap fun f => (List.finRange mqttMaxRetained).map (f, ·))

/-- `argus_mqtt_handle_subscribe`. -/
def handleSubscribe (packet : Bytes) : SubscribeProg SubscribeResult :=
  .ask .calloc fun allocated =>
  if ¬ allocated then .ret ⟨espErrNoMem, none⟩
  else
    match parseSubscribe packet with
    | .error err => .ret ⟨err, none⟩
    | .ok (packetId, filters) =>
      .ask .infoIfAdmitted fun
        | none => .ret ⟨espErrNotAllowed, none⟩
        | some info =>
          policyAllows info filters >>= fun allowed =>
          if ¬ allowed then
            let denied := suback packetId filters.length 0x80
            .ask (.sendSuback denied) fun _ => .ret ⟨espOk, some denied⟩
          else grantFilters packetId filters

/-! ## The broker around it -/

/-- The client task that takes a step. -/
def DeliveryAct.task : DeliveryAct → Option (Fin mqttMaxConnections)
  | .sockets (.records (.connect i _)) | .sockets (.records (.find i _))
  | .sockets (.records (.bind i _)) | .sockets (.records (.connack i _))
  | .sockets (.records (.leave i)) | .sockets (.records (.close i))
  | .forward i _ _ | .subscribe i _ | .replay i | .replaySend i _ => some i
  | _ => none

/-- Steps of the broker between two calls of client task `i`. -/
def Others (i : Fin mqttMaxConnections) (s u : Delivery) : Prop :=
  ∃ ms, IsRun deliveryStep s ms ∧ final s ms = u ∧ ∀ v ∈ ms, v.ev.task ≠ some i

/-- The locked section: all filters are appended or none. -/
def Delivery.appendFilters (s : Delivery) (i : Fin mqttMaxConnections) (connectionId : UInt64)
    (filters : List Bytes) : Option Delivery :=
  match (s.client i).sessionSlot with
  | none => none
  | some k =>
    if (s.client i).admitted connectionId ∧
        (s.subscriptions k).length + filters.length ≤ mqttMaxSubsPerClient then
      some { s with
        subscriptions := Function.update s.subscriptions k (s.subscriptions k ++ filters) }
    else none

/-- How the broker in state `u` answers; what the policy and the directory say is left open. -/
def Delivery.answers (i : Fin mqttMaxConnections) (memory : Bool) (u : Delivery) :
    (q : SubscribeCall) → q.Answer → Delivery → Prop
  | .calloc, r, t => r = memory ∧ t = u
  | .infoIfAdmitted, r, t => t = u ∧
      match r with
      | none => (u.client i).admitted (u.client i).connectionId = false
      | some info => (u.client i).admitted (u.client i).connectionId = true ∧
          info.connectionId = (u.client i).connectionId ∧ info.clientId = (u.client i).clientId
  | .subscribePolicy .., _, t | .revalidate _, _, t | .sendSuback _, _, t => t = u
  | .append connectionId filters, r, t =>
      r = (u.appendFilters i connectionId filters).isSome ∧
        t = (u.appendFilters i connectionId filters).getD u
  | .copyRetained filter r, e, t =>
      e = (u.retained r).filter (fun e => topicMatches filter e.1) ∧ t = u
  | .sendPublish topic payload, r, t => u.write (u.client i).sock topic payload r = some t

/-- The environment of a handler of client task `i`. -/
def SubscribeEnv (i : Fin mqttMaxConnections) (memory : Bool) (q : SubscribeCall) (s : Delivery)
    (r : q.Answer) (t : Delivery) : Prop :=
  ∃ u, Others i s u ∧ u.answers i memory q r t

/-! ## The session of a serving client -/

/-- Client `i` keeps its connection and session `k`, which holds `filters`. -/
structure Serving (i : Fin mqttMaxConnections) (k : Fin mqttMaxClients) (connectionId : UInt64)
    (filters : List Bytes) (s : Delivery) : Prop where
  sockets : ShutdownInv s.sockets
  connected : (s.client i).connected = true
  slot : (s.client i).sessionSlot = some k
  connectionId : (s.client i).connectionId = connectionId
  filters : s.subscriptions k = filters

section

variable {i : Fin mqttMaxConnections} {k : Fin mqttMaxClients} {connectionId : UInt64}
  {filters : List Bytes} {s t : Delivery}

theorem Serving.same (h : Serving i k connectionId filters s) (hsockets : t.sockets = s.sockets)
    (hfilters : t.subscriptions k = s.subscriptions k) : Serving i k connectionId filters t := by
  have hclient : t.client i = s.client i := congrArg (fun w => w.broker.clients i) hsockets
  exact ⟨hsockets ▸ h.sockets, hclient ▸ h.connected, hclient ▸ h.slot, hclient ▸ h.connectionId,
    hfilters.trans h.filters⟩

/-- A step of the sockets by another task. -/
theorem Serving.sockets_step {act : SocketAct} {w : Sockets}
    (h : Serving i k connectionId filters s) (hs : socketStep s.sockets act w)
    (hother : act ≠ .records (.close i)) :
    ShutdownInv w ∧ KeptSession (s.client i) (w.broker.clients i) ∧
      s.sockets.broker.sessions k = true ∧ w.broker.sessions k = true := by
  have hw := h.sockets.step hs
  rcases socketStep_session h.sockets.pool hs h.connected h.slot with hkept | ⟨hclose, -⟩
  · have hused : ∀ {b : Broker}, PoolInv b → (b.clients i).connected = true →
        (b.clients i).sessionSlot = some k → b.sessions k = true := by
      intro b hb hconnected hslot
      obtain ⟨l, hl, hsession⟩ := hb.slot i hconnected
      cases hl.symm.trans hslot
      exact hsession
    exact ⟨hw, hkept, hused h.sockets.pool h.connected h.slot,
      hused hw.pool (hkept.connected.trans h.connected) (hkept.sessionSlot.trans h.slot)⟩
  · exact absurd hclose hother

/-- **Other tasks** leave the session alone. -/
theorem Serving.step {act : DeliveryAct} (h : Serving i k connectionId filters s)
    (hs : deliveryStep s act t) (hother : act.task ≠ some i) :
    Serving i k connectionId filters t := by
  have hmoved : ∀ {act : SocketAct} {w : Sockets} {u : Delivery}, socketStep s.sockets act w →
      act ≠ .records (.close i) → u.sockets = w →
      (s.sockets.broker.sessions k = true → w.broker.sessions k = true →
        u.subscriptions k = s.subscriptions k) → Serving i k connectionId filters u := by
    intro act w u hstep hclose hu hkeep
    obtain ⟨hw, hkept, hbefore, hafter⟩ := h.sockets_step hstep hclose
    have hclient : u.client i = w.broker.clients i := congrArg (fun w => w.broker.clients i) hu
    refine ⟨hu ▸ hw, ?_, ?_, ?_, (hkeep hbefore hafter).trans h.filters⟩
    · rw [hclient]
      exact hkept.connected.trans h.connected
    · rw [hclient]
      exact hkept.sessionSlot.trans h.slot
    · rw [hclient]
      exact hkept.connectionId.trans h.connectionId
  cases deliveryStep_case hs with
  | sockets act w hallows hstep =>
    refine hmoved hstep ?_ rfl fun hbefore hafter => ?_
    · rintro rfl
      exact hother rfl
    · show s.subscriptionsAfter w.broker k = s.subscriptions k
      unfold Delivery.subscriptionsAfter
      rw [if_pos ⟨hbefore, hafter⟩]
  | full => exact h
  | retain => exact h.same rfl rfl
  | publish => exact h.same rfl rfl
  | forward => exact h.same rfl rfl
  | send j ok job sock n rest t hjob hsockets hwrite =>
    obtain ⟨hsame, -, -, hfilters, -⟩ := write_same hwrite
    exact h.same hsame (congrFun hfilters k)
  | subscribe j news l hslot =>
    refine h.same rfl (Function.update_of_ne ?_ _ _)
    rintro rfl
    obtain rfl := h.sockets.pool.apart i j k h.slot hslot
    exact hother rfl
  | look => exact h.same rfl rfl
  | finish => exact h.same rfl rfl
  | replaySend j ok connectionId todo topic payload t hreplay hadmitted hwrite =>
    obtain ⟨hsame, -, -, hfilters, -⟩ := write_same hwrite
    exact h.same hsame (congrFun hfilters k)
  | abort j ok rp w hreplay hadmitted hstep =>
    exact hmoved hstep (by rintro h; cases h) rfl fun _ _ => rfl

theorem Serving.others (h : Serving i k connectionId filters s) (hothers : Others i s t) :
    Serving i k connectionId filters t := by
  obtain ⟨ms, hrun, rfl, hother⟩ := hothers
  exact (hrun.inv_of (K := fun v => v.ev.task ≠ some i) h hother
    fun v hv hs hv' => hv.step hs hv').2

/-- An answer that is no append leaves it alone as well. -/
theorem Serving.answer {memory : Bool} {q : SubscribeCall} {r : q.Answer}
    (h : Serving i k connectionId filters s) (hq : ∀ c news, q ≠ .append c news)
    (henv : SubscribeEnv i memory q s r t) : Serving i k connectionId filters t := by
  obtain ⟨u, hothers, hanswer⟩ := henv
  have hu := h.others hothers
  cases q with
  | append c news => exact absurd rfl (hq c news)
  | calloc => exact hanswer.2 ▸ hu
  | infoIfAdmitted => exact hanswer.1 ▸ hu
  | subscribePolicy info filter =>
    obtain rfl : t = u := hanswer
    exact hu
  | revalidate info =>
    obtain rfl : t = u := hanswer
    exact hu
  | sendSuback packet =>
    obtain rfl : t = u := hanswer
    exact hu
  | copyRetained filter entry => exact hanswer.2 ▸ hu
  | sendPublish topic payload =>
    obtain ⟨hsame, -, -, hfilters, -⟩ := write_same hanswer
    exact hu.same hsame (congrFun hfilters k)

/-- The append takes all of the packet or nothing, and nothing only for want of room or of a
client that is still admitted. -/
theorem Serving.append {memory : Bool} {news : List Bytes} {capacity : Bool}
    (h : Serving i k connectionId filters s)
    (henv : SubscribeEnv i memory (.append connectionId news) s capacity t) :
    (capacity = true ∧ filters.length + news.length ≤ mqttMaxSubsPerClient ∧
      Serving i k connectionId (filters ++ news) t) ∨
    (capacity = false ∧ Serving i k connectionId filters t ∧
      ((t.client i).admitted connectionId = true →
        mqttMaxSubsPerClient < filters.length + news.length)) := by
  obtain ⟨u, hothers, hr, ht⟩ := henv
  have hu := h.others hothers
  unfold Delivery.appendFilters at hr ht
  rw [hu.slot] at hr ht
  dsimp only at hr ht
  rw [hu.filters] at hr ht
  split at hr
  · next hroom =>
    rw [if_pos hroom] at ht
    refine .inl ⟨hr, hroom.2, ?_⟩
    subst ht
    exact ⟨hu.sockets, hu.connected, hu.slot, hu.connectionId, Function.update_self _ _ _⟩
  · next hroom =>
    rw [if_neg hroom] at ht
    obtain rfl : t = u := ht
    refine .inr ⟨hr, hu, fun hadmitted => ?_⟩
    by_contra hfull
    exact hroom ⟨hadmitted, Nat.not_lt.mp hfull⟩

/-- A client that is told of is the one that was admitted. -/
theorem Serving.info {memory : Bool} {info : ClientInfo}
    (h : Serving i k connectionId filters s)
    (henv : SubscribeEnv i memory .infoIfAdmitted s (some info) t) :
    info.connectionId = connectionId := by
  obtain ⟨u, hothers, -, -, hid, -⟩ := henv
  exact hid.trans (h.others hothers).connectionId

end

/-! ## The handler -/

theorem policyAllows_wp (info : ClientInfo) (filters : List Bytes) :
    (policyAllows info filters).wp (fun _ _ => True) (fun q => ∀ c news, q ≠ .append c news)
      fun _ => True := by
  induction filters with
  | nil => trivial
  | cons filter filters ih =>
    refine ⟨by rintro _ _ ⟨⟩, fun allowed _ => ?_⟩
    dsimp only
    split
    · trivial
    · exact ih

theorem replayRetained_wp (connectionId : UInt64) (todo : List (Bytes × Fin mqttMaxRetained)) :
    (replayRetained connectionId todo).wp (fun _ _ => True)
      (fun q => ∀ c news, q ≠ .append c news) fun _ => True := by
  induction todo with
  | nil => trivial
  | cons e todo ih =>
    refine ⟨by rintro _ _ ⟨⟩, fun copy _ => ?_⟩
    dsimp only
    split
    · exact ih
    · refine ⟨by rintro _ _ ⟨⟩, fun info _ => ?_⟩
      dsimp only
      split
      · trivial
      · split
        · trivial
        · exact ⟨by rintro _ _ ⟨⟩, fun _ _ => ih⟩

/-- What a packet can come to: nothing is added, or everything. -/
inductive SubscribeOutcome (packet : Bytes) (i : Fin mqttMaxConnections) (k : Fin mqttMaxClients)
    (connectionId : UInt64) (memory : Bool) (before : List Bytes) (r : SubscribeResult)
    (t : Delivery) : Prop
  | rejected (hsuback : r.suback = none) (herr : r.err ≠ espOk)
      (hkept : Serving i k connectionId before t)
      (hfull : r.err = espErrNoMem → memory = true →
        (t.client i).admitted connectionId = true → ∃ packetId filters,
          parseSubscribe packet = .ok (packetId, filters) ∧
            mqttMaxSubsPerClient < before.length + filters.length)
  | denied (packetId : UInt16) (filters : List Bytes)
      (hparse : parseSubscribe packet = .ok (packetId, filters))
      (hr : r = ⟨espOk, some (suback packetId filters.length 0x80)⟩)
      (hkept : Serving i k connectionId before t)
  | granted (packetId : UInt16) (filters : List Bytes)
      (hparse : parseSubscribe packet = .ok (packetId, filters))
      (hsuback : r.suback = some (suback packetId filters.length 0x00))
      (hroom : before.length + filters.length ≤ mqttMaxSubsPerClient)
      (hkept : Serving i k connectionId (before ++ filters) t)

section

variable {packet : Bytes} {i : Fin mqttMaxConnections} {k : Fin mqttMaxClients}
  {connectionId : UInt64} {memory : Bool} {before : List Bytes} {s t : Delivery}

theorem SubscribeOutcome.refused {err : EspErr} (herr : err ≠ espOk) (hroom : err ≠ espErrNoMem)
    (h : Serving i k connectionId before t) :
    SubscribeOutcome packet i k connectionId memory before ⟨err, none⟩ t :=
  .rejected rfl herr h fun hfull => absurd hfull hroom

theorem parseFilters_err {room : Nat} {rest : Bytes} {err : EspErr}
    (h : parseFilters room rest = .error err) :
    err = espErrInvalidArg ∨ err = espErrNotSupported := by
  induction room generalizing rest err with
  | zero =>
    cases rest with
    | nil => cases h
    | cons b rest =>
      cases h
      exact .inl rfl
  | succ room ih =>
    cases rest with
    | nil => cases h
    | cons b rest =>
      unfold parseFilters at h
      split at h
      · cases h
        exact .inl rfl
      · split at h
        · cases h
          exact .inl rfl
        · split at h
          · cases h
            exact .inl rfl
          · next requestedQos rest _ =>
            split at h
            · cases h
              exact .inr rfl
            · cases hrest : parseFilters room rest with
              | error e =>
                rw [hrest] at h
                cases h
                exact ih hrest
              | ok filters =>
                rw [hrest] at h
                cases h

theorem parseSubscribe_err {err : EspErr} (h : parseSubscribe packet = .error err) :
    err ≠ espOk ∧ err ≠ espErrNoMem := by
  have hcases : err = espErrInvalidArg ∨ err = espErrNotSupported := by
    unfold parseSubscribe at h
    split at h
    · cases h
      exact .inl rfl
    · split at h
      · next hfilters =>
        cases h
        exact parseFilters_err hfilters
      · split at h
        · cases h
          exact .inl rfl
        · cases h
  rcases hcases with rfl | rfl
  · exact ⟨by decide, by decide⟩
  · exact ⟨by decide, by decide⟩

theorem grantFilters_wpS {packetId : UInt16} {filters : List Bytes}
    (hparse : parseSubscribe packet = .ok (packetId, filters))
    (h : Serving i k connectionId before s) :
    (grantFilters packetId filters).wpS (SubscribeEnv i memory) (fun _ _ => True)
      (SubscribeOutcome packet i k connectionId memory before) s := by
  refine ⟨trivial, fun found u hfound => ?_⟩
  have hu := h.answer (by rintro _ _ ⟨⟩) hfound
  cases found with
  | none => exact .refused (by decide) (by decide) hu
  | some info =>
    have hid := h.info hfound
    refine ⟨trivial, fun ok v hok => ?_⟩
    have hv := hu.answer (by rintro _ _ ⟨⟩) hok
    dsimp only
    split
    · exact .refused (by decide) (by decide) hv
    · refine ⟨trivial, fun capacity w hcapacity => ?_⟩
      rw [hid] at hcapacity
      rcases hv.append hcapacity with ⟨rfl, hroom, hw⟩ | ⟨rfl, hw, hfull⟩
      · -- appended: what follows cannot take the filters back
        dsimp only
        rw [if_neg (by decide)]
        refine ⟨trivial, fun sent x hsent => ?_⟩
        have hx := hw.answer (by rintro _ _ ⟨⟩) hsent
        dsimp only
        split
        · exact .granted packetId filters hparse rfl hroom hx
        · refine (Prog.wpS_bind _ _ (replayRetained _ _) (fun err => .ret (SubscribeResult.mk err
            (some (suback packetId filters.length 0x00)))) _).mpr ?_
          refine Prog.wpS_mono (fun _ _ _ => trivial) (fun err y hy => ?_) _ _
            (Prog.wpS_of_wp _ _ (fun q s r t hq hs hH => hs.answer hq hH) _
              (replayRetained_wp _ _) hx)
          exact .granted packetId filters hparse rfl hroom hy.2
      · dsimp only
        rw [if_pos (by decide)]
        exact .rejected rfl (by decide) hw fun _ _ hadmitted =>
          ⟨packetId, filters, hparse, hfull hadmitted⟩

theorem handleSubscribe_wpS (packet : Bytes) (h : Serving i k connectionId before s) :
    (handleSubscribe packet).wpS (SubscribeEnv i memory) (fun _ _ => True)
      (SubscribeOutcome packet i k connectionId memory before) s := by
  refine ⟨trivial, fun allocated u hallocated => ?_⟩
  have hu := h.answer (by rintro _ _ ⟨⟩) hallocated
  dsimp only
  split
  · next hnone =>
    refine .rejected rfl (by decide) hu fun _ hmemory _ => ?_
    obtain ⟨_, _, hsame, -⟩ := hallocated
    rw [hsame, hmemory] at hnone
    exact absurd rfl hnone
  · cases hparse : parseSubscribe packet with
    | error err =>
      obtain ⟨hok, hroom⟩ := parseSubscribe_err hparse
      exact .refused hok hroom hu
    | ok parsed =>
      obtain ⟨packetId, filters⟩ := parsed
      refine ⟨trivial, fun found v hfound => ?_⟩
      have hv := hu.answer (by rintro _ _ ⟨⟩) hfound
      cases found with
      | none => exact .refused (by decide) (by decide) hv
      | some info =>
        show Prog.wpS _ _ _ (policyAllows info filters >>= _) _
        rw [Prog.wpS_bind]
        refine Prog.wpS_mono (fun _ _ _ => trivial) (fun allowed w hw => ?_) _ _
          (Prog.wpS_of_wp _ _ (fun q s r t hq hs hH => hs.answer hq hH) _
            (policyAllows_wp info filters) hv)
        split
        · refine ⟨trivial, fun sent x hsent => ?_⟩
          exact .denied packetId filters hparse rfl (hw.2.answer (by rintro _ _ ⟨⟩) hsent)
        · exact grantFilters_wpS hparse hw.2

end

/-! ## Runs of the broker -/

/-- No session of a reachable broker has more entries than its array. -/
structure SessionsInv (s : Delivery) : Prop where
  sockets : ShutdownInv s.sockets
  room : ∀ k, (s.subscriptions k).length ≤ mqttMaxSubsPerClient

theorem SessionsInv.step {s t : Delivery} {act : DeliveryAct} (h : SessionsInv s)
    (hs : deliveryStep s act t) : SessionsInv t := by
  have hwritten : ∀ {u v : Delivery} {sock : Int} {topic payload : Bytes} {ok : Bool},
      s.write sock topic payload ok = some u → v.sockets = u.sockets →
        v.subscriptions = u.subscriptions → SessionsInv v := by
    intro u v sock topic payload ok hwrite hsockets hfilters
    obtain ⟨hsame, -, -, hkept, -⟩ := write_same hwrite
    exact ⟨hsockets ▸ hsame ▸ h.sockets, hfilters ▸ hkept ▸ h.room⟩
  cases deliveryStep_case hs with
  | sockets act w hallows hstep =>
    refine ⟨h.sockets.step hstep, fun k => ?_⟩
    show (s.subscriptionsAfter w.broker k).length ≤ _
    unfold Delivery.subscriptionsAfter
    split
    · exact h.room k
    · exact Nat.zero_le _
  | full => exact h
  | retain => exact ⟨h.sockets, h.room⟩
  | publish => exact ⟨h.sockets, h.room⟩
  | forward => exact ⟨h.sockets, h.room⟩
  | send j ok job sock n rest u hjob hsockets hwrite => exact hwritten hwrite rfl rfl
  | subscribe i filters k hslot =>
    refine ⟨h.sockets, fun l => ?_⟩
    unfold deliveryStep at hs
    dsimp only [Delivery.next] at hs
    rw [hslot] at hs
    dsimp only at hs
    split at hs
    · next hguard =>
      dsimp only
      by_cases hl : l = k
      · subst hl
        rw [Function.update_self, List.length_append]
        exact hguard.2.2.2
      · rw [Function.update_of_ne hl]
        exact h.room l
    · cases hs
  | look => exact ⟨h.sockets, h.room⟩
  | finish => exact ⟨h.sockets, h.room⟩
  | replaySend i ok connectionId todo topic payload u hreplay hadmitted hwrite =>
    exact hwritten hwrite rfl rfl
  | abort i ok rp w hreplay hadmitted hstep => exact ⟨h.sockets.step hstep, h.room⟩

theorem SessionsInv.final {nextConnectionId : UInt64} {directory : List MachineEntry}
    {ms : List DeliveryMove} (h : IsRun deliveryStep (.start nextConnectionId directory) ms) :
    SessionsInv (final (.start nextConnectionId directory) ms) :=
  (h.inv ⟨.start _ _, fun _ => Nat.zero_le _⟩ fun _ hv hs => SessionsInv.step hv hs).2

/-- **SUBSCRIBE adds all of its filters or none**, whatever the other tasks do meanwhile, and
runs out of room only where the entries, repeats among them, are more than eight. -/
theorem subscribe_atomic {nextConnectionId : UInt64} {directory : List MachineEntry}
    {ms : List DeliveryMove} (h : IsRun deliveryStep (.start nextConnectionId directory) ms)
    {i : Fin mqttMaxConnections} {k : Fin mqttMaxClients} {memory : Bool} {packet : Bytes}
    {tr : List (Σ q, SubscribeCall.Answer q)} {r : SubscribeResult} {t : Delivery} :
    let s := final (.start nextConnectionId directory) ms
    (s.client i).admitted (s.client i).connectionId = true → (s.client i).sessionSlot = some k →
    Prog.Exec (SubscribeEnv i memory) (handleSubscribe packet) s tr r t →
    ((t.subscriptions k = s.subscriptions k ∧ (r.suback = none ∧ r.err ≠ espOk ∨
        ∃ packetId filters, parseSubscribe packet = .ok (packetId, filters) ∧
          r = ⟨espOk, some (suback packetId filters.length 0x80)⟩)) ∨
      ∃ packetId filters, parseSubscribe packet = .ok (packetId, filters) ∧
        r.suback = some (suback packetId filters.length 0x00) ∧
        (s.subscriptions k).length + filters.length ≤ mqttMaxSubsPerClient ∧
        t.subscriptions k = s.subscriptions k ++ filters ∧
        (t.subscriptions k).toFinset = (s.subscriptions k).toFinset ∪ filters.toFinset) ∧
    (t.subscriptions k).length ≤ mqttMaxSubsPerClient ∧
    (∀ packetId filters, parseSubscribe packet = .ok (packetId, filters) →
      filters ⊆ s.subscriptions k → (t.subscriptions k).toFinset = (s.subscriptions k).toFinset) ∧
    (r.err = espErrNoMem → r.suback = none → memory = true →
      (t.client i).admitted (s.client i).connectionId = true → ∃ packetId filters,
        parseSubscribe packet = .ok (packetId, filters) ∧
          mqttMaxSubsPerClient < (s.subscriptions k).length + filters.length) := by
  intro s hadmitted hslot hexec
  have hinv : SessionsInv s := .final h
  have hserving : Serving i k (s.client i).connectionId (s.subscriptions k) s := by
    unfold MqttClient.admitted at hadmitted
    simp only [Bool.and_eq_true] at hadmitted
    exact ⟨hinv.sockets, hadmitted.1.1.2, hslot, rfl, rfl⟩
  cases hexec.of_wpS (handleSubscribe_wpS packet hserving) with
  | rejected hsuback herr hkept hfull =>
    refine ⟨.inl ⟨hkept.filters, .inl ⟨hsuback, herr⟩⟩, hkept.filters ▸ hinv.room k,
      fun _ _ _ _ => by rw [hkept.filters], fun hnomem _ hmemory hstill => ?_⟩
    exact hfull hnomem hmemory hstill
  | denied packetId filters hparse hr hkept =>
    refine ⟨.inl ⟨hkept.filters, .inr ⟨packetId, filters, hparse, hr⟩⟩,
      hkept.filters ▸ hinv.room k, fun _ _ _ _ => by rw [hkept.filters], fun _ hnone => ?_⟩
    rw [hr] at hnone
    cases hnone
  | granted packetId filters hparse hsuback hroom hkept =>
    have hset : (t.subscriptions k).toFinset =
        (s.subscriptions k).toFinset ∪ filters.toFinset := by
      rw [hkept.filters, List.toFinset_append]
    refine ⟨.inr ⟨packetId, filters, hparse, hsuback, hroom, hkept.filters, hset⟩, ?_,
      fun packetId' filters' hparse' hsub => ?_, fun _ hnone => ?_⟩
    · rw [hkept.filters, List.length_append]
      exact hroom
    · cases hparse.symm.trans hparse'
      rw [hset]
      refine Finset.union_eq_left.mpr fun f hf => ?_
      rw [List.mem_toFinset] at hf ⊢
      exact hsub hf
    · rw [hsuback] at hnone
      cases hnone

/-! ### A panel -/

/-- A broker in which nobody else moves, the policy and the directory agree and every send
goes out. -/
def Delivery.reply (i : Fin mqttMaxConnections) : (q : SubscribeCall) → Delivery →
    q.Answer × Delivery
  | .infoIfAdmitted, s =>
    (if (s.client i).admitted (s.client i).connectionId then
      some ⟨(s.client i).connectionId, (s.client i).clientId, (s.client i).receivingInterface,
        panelPrincipal (txt "*") 1⟩
    else none, s)
  | .append connectionId filters, s =>
    ((s.appendFilters i connectionId filters).isSome,
      (s.appendFilters i connectionId filters).getD s)
  | .copyRetained filter r, s => ((s.retained r).filter fun e => topicMatches filter e.1, s)
  | .sendPublish topic payload, s =>
    match s.write (s.client i).sock topic payload true with
    | some t => (true, t)
    | none => (false, s)
  | .calloc, s | .subscribePolicy .., s | .revalidate _, s | .sendSuback _, s => (true, s)

theorem reply_env (i : Fin mqttMaxConnections) (q : SubscribeCall) (s : Delivery) :
    SubscribeEnv i true q s (s.reply i q).1 (s.reply i q).2 := by
  refine ⟨s, ⟨[], trivial, rfl, by simp⟩, ?_⟩
  cases q with
  | infoIfAdmitted =>
    refine ⟨rfl, ?_⟩
    dsimp only [Delivery.reply]
    by_cases hadmitted : (s.client i).admitted (s.client i).connectionId = true
    · rw [if_pos hadmitted]
      exact ⟨hadmitted, rfl, rfl⟩
    · rw [if_neg hadmitted]
      exact Bool.eq_false_iff.mpr hadmitted
  | append connectionId filters => exact ⟨rfl, rfl⟩
  | copyRetained filter r => exact ⟨rfl, rfl⟩
  | sendPublish topic payload =>
    dsimp only [Delivery.reply, Delivery.answers]
    split
    · next t hwrite => exact hwrite
    · rfl
  | calloc => exact ⟨rfl, rfl⟩
  | subscribePolicy info filter => rfl
  | revalidate info => rfl
  | sendSuback packet => rfl

def subscribePacket (packetId : UInt8) (filters : List Bytes) : Bytes :=
  [0, packetId] ++ filters.flatMap fun f => [0, f.length.toUInt8] ++ f ++ [0]

theorem subscribe_atomic_panel :
    let s := deliveryAt (panelSocket.map .sockets)
    let ended := (handleSubscribe (subscribePacket 1 [unitFilter])).playS (Delivery.reply 0) s
    ended.2.2.subscriptions 0 = [unitFilter] ∧
      (ended.2.2.subscriptions 0).length ≤ mqttMaxSubsPerClient := by
  intro s ended
  have hatomic := subscribe_atomic (i := 0) (k := 0) (isRun_deliveryTrace panelDelivery
    (panelSocket.map .sockets)) (by decide +kernel) (by decide +kernel)
    (Prog.playS_exec (reply_env 0) (handleSubscribe (subscribePacket 1 [unitFilter])) s)
  exact ⟨by decide +kernel, hatomic.2.1⟩

/-- The panel repeats the one filter it has, and the packet is refused for want of room. -/
theorem subscribe_repeat_refused :
    let s := deliveryAt panelSubscribes
    let packet := subscribePacket 1 (List.replicate 8 unitFilter)
    let ended := (handleSubscribe packet).playS (Delivery.reply 0) s
    IsRun deliveryStep panelDelivery (deliveryTrace panelDelivery panelSubscribes) ∧
    (s.client 0).admitted (s.client 0).connectionId = true ∧
    (s.client 0).sessionSlot = some 0 ∧ s.subscriptions 0 = [unitFilter] ∧
    parseSubscribe packet = .ok (1, List.replicate 8 unitFilter) ∧
    Prog.Exec (SubscribeEnv 0 true) (handleSubscribe packet) s ended.1 ended.2.1 ended.2.2 ∧
    ended.2.1 = ⟨espErrNoMem, none⟩ :=
  ⟨isRun_deliveryTrace _ _, by decide +kernel, by decide +kernel, by decide +kernel,
    by decide +kernel, Prog.playS_exec (reply_env 0) _ _, by decide +kernel⟩

end Argus
