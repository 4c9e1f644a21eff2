import ArgusPump.BrokerRetained

/-!
# The retained store as a bounded map

`argus_mqtt_broker_publish` with its result and `argus_mqtt_broker_get_retained` of
`main/argus_mqtt_broker.c`, over the runs of one lifecycle.

    the store of a run answers with the last accepted value of every topic, and takes a
      new topic until forty are held                                     (retained_map)

A client's PUBLISH with the retain flag is refused by the policy and no part of these runs.
-/

namespace Argus

open Interact

namespace Delivery

/-- `argus_mqtt_broker_publish` up to where it gives the lock back. -/
def brokerPublish (s : Delivery) (topic payload : Bytes) (retain : Bool) : EspErr × Delivery :=
  if topic.length ≥ mqttBrokerTopicCap then (espErrInvalidSize, s)
  else if payload.length ≥ mqttBrokerPayloadCap then (espErrInvalidSize, s)
  else if s.sockets.stopping then (espErrInvalidState, s)
  else
    match if retain then storeRetained s.retained topic payload else some s.retained with
    | none => (espErrNoMem, s)
    | some retained =>
      (espOk, { s with
        retained := retained
        jobs := s.jobs ++ [⟨none, s.collectSubscribers topic, topic, payload, retain⟩] })

/-- `argus_mqtt_broker_get_retained`: the result and the string in `out`. -/
def getRetained (s : Delivery) (topic out : Bytes) (outSize : Nat) : EspErr × Bytes :=
  if outSize = 0 then (espErrInvalidArg, out)
  else
    match ((List.finRange mqttMaxRetained).find? fun r =>
      (s.retained r).any fun e => e.1 = topic).bind s.retained with
    | some e => (espOk, e.2.take (outSize - 1))
    | none => (espErrNotFound, [])

end Delivery

/-- The publication a move accepts into the store. -/
def DeliveryMove.stored (v : DeliveryMove) : Option (Bytes × Bytes) :=
  match v.ev with
  | .publish topic payload true =>
    if (v.pre.brokerPublish topic payload true).1 = espOk then some (topic, payload) else none
  | _ => none

/-- The payload of the last accepted retained publication to a topic. -/
def lastAccepted (ms : List DeliveryMove) (topic : Bytes) : Option Bytes :=
  ((ms.filterMap DeliveryMove.stored).reverse.find? fun e => e.1 = topic).map Prod.snd

theorem lastAccepted_append (ms : List DeliveryMove) (v : DeliveryMove) (topic : Bytes) :
    lastAccepted (ms ++ [v]) topic =
      match v.stored with
      | some (topic', payload) => if topic' = topic then some payload else lastAccepted ms topic
      | none => lastAccepted ms topic := by
  unfold lastAccepted
  rw [List.filterMap_append, List.reverse_append]
  cases hstored : v.stored with
  | none =>
    rw [List.filterMap_cons_none hstored]
    rfl
  | some e =>
    obtain ⟨topic', payload⟩ := e
    rw [List.filterMap_cons_some hstored]
    rw [List.filterMap_nil, List.reverse_singleton, List.singleton_append, List.find?_cons]
    by_cases htopic : topic' = topic
    · simp [htopic]
    · simp [htopic]

/-! ## The store as a map -/

def topicOf (e : Option (Bytes × Bytes)) : Option Bytes := e.map Prod.fst

theorem topicOf_eq_some {e : Option (Bytes × Bytes)} {topic : Bytes} :
    topicOf e = some topic ↔ ∃ p, e = some (topic, p) := by
  unfold topicOf
  rw [Option.map_eq_some_iff]
  constructor
  · rintro ⟨⟨topic', p⟩, rfl, rfl⟩
    exact ⟨p, rfl⟩
  · rintro ⟨p, rfl⟩
    exact ⟨(topic, p), rfl, rfl⟩

/-- The topics held. -/
def heldTopics (retained : Fin mqttMaxRetained → Option (Bytes × Bytes)) : Finset Bytes :=
  Slots.keys topicOf retained

/-- What the slot of a topic holds. -/
def payloadOf (retained : Fin mqttMaxRetained → Option (Bytes × Bytes)) (topic : Bytes) :
    Option Bytes :=
  (Slots.get topicOf retained topic).join.map Prod.snd

section

variable {retained retained' : Fin mqttMaxRetained → Option (Bytes × Bytes)}
  {topic payload : Bytes}

theorem oneEach_iff : OneEach retained ↔ Slots.Keyed topicOf retained := by
  constructor
  · intro h r r' topic hr hr'
    obtain ⟨p, hp⟩ := topicOf_eq_some.mp hr
    obtain ⟨p', hp'⟩ := topicOf_eq_some.mp hr'
    exact h r r' topic p p' hp hp'
  · intro h r r' topic p p' hr hr'
    exact h r r' topic (topicOf_eq_some.mpr ⟨p, hr⟩) (topicOf_eq_some.mpr ⟨p', hr'⟩)

/-- The scan of the source for a topic. -/
theorem find_topic (retained : Fin mqttMaxRetained → Option (Bytes × Bytes)) (topic : Bytes) :
    ((List.finRange mqttMaxRetained).find? fun r => (retained r).any fun e => e.1 = topic) =
      (List.finRange mqttMaxRetained).find? fun r => topicOf (retained r) = some topic := by
  congr 1
  funext r
  cases retained r with
  | none => rfl
  | some e => simp [topicOf]

theorem mem_heldTopics : topic ∈ heldTopics retained ↔ ∃ r p, retained r = some (topic, p) := by
  unfold heldTopics
  rw [Slots.mem_keys]
  exact exists_congr fun r => topicOf_eq_some

theorem payloadOf_eq_some (hone : OneEach retained) :
    payloadOf retained topic = some payload ↔ ∃ r, retained r = some (topic, payload) := by
  unfold payloadOf
  rw [Option.map_eq_some_iff]
  constructor
  · rintro ⟨⟨topic', p⟩, hjoin, rfl⟩
    obtain ⟨r, hr, htopic⟩ := Slots.exists_of_get (Option.join_eq_some_iff.mp hjoin)
    obtain ⟨p', hp'⟩ := topicOf_eq_some.mp htopic
    obtain ⟨rfl, rfl⟩ := Prod.mk.inj (Option.some.inj hp')
    exact ⟨r, hr⟩
  · rintro ⟨r, hr⟩
    refine ⟨(topic, payload), Option.join_eq_some_iff.mpr ?_, rfl⟩
    exact (Slots.get_eq_some (oneEach_iff.mp hone)).mpr
      ⟨r, hr, topicOf_eq_some.mpr ⟨payload, rfl⟩⟩

theorem payloadOf_ne_none (hone : OneEach retained) :
    payloadOf retained topic ≠ none ↔ topic ∈ heldTopics retained := by
  rw [Option.ne_none_iff_exists', mem_heldTopics, exists_comm]
  exact exists_congr fun p => payloadOf_eq_some hone

/-- A store is refused exactly for a new topic with every slot taken. -/
theorem storeRetained_eq_none (hone : OneEach retained) :
    Delivery.storeRetained retained topic payload = none ↔
      topic ∉ heldTopics retained ∧ (heldTopics retained).card = mqttMaxRetained := by
  have hcard : (heldTopics retained).card = Slots.count Option.isSome retained := by
    unfold heldTopics
    rw [Slots.card_keys (oneEach_iff.mp hone)]
    congr 1
    funext e
    exact Option.isSome_map
  have hnew : ((List.finRange mqttMaxRetained).find? fun r =>
      (retained r).any fun e => e.1 = topic) = none ↔ topic ∉ heldTopics retained := by
    rw [find_topic, List.find?_eq_none]
    unfold heldTopics
    rw [Slots.mem_keys]
    simp
  unfold Delivery.storeRetained
  rw [Option.map_eq_none_iff, Option.or_eq_none_iff, hnew, hcard, Slots.firstFree_eq_none_iff]

/-- An accepted store changes the map at its topic only. -/
theorem payloadOf_store (hone : OneEach retained)
    (h : Delivery.storeRetained retained topic payload = some retained') (topic' : Bytes) :
    payloadOf retained' topic' =
      if topic = topic' then some payload else payloadOf retained topic' := by
  obtain ⟨r, rfl, honly, hslot⟩ := storeRetained_spec hone h
  have hone' : OneEach (Function.update retained r (some (topic, payload))) := hone.update honly
  split
  · next htopic =>
    subst htopic
    exact (payloadOf_eq_some hone').mpr ⟨r, Function.update_self ..⟩
  · next htopic =>
    refine Option.ext fun p => ?_
    rw [payloadOf_eq_some hone', payloadOf_eq_some hone]
    refine exists_congr fun r' => ?_
    by_cases hr : r' = r
    · subst hr
      rw [Function.update_self]
      constructor
      · rintro heq
        cases heq
        exact absurd rfl htopic
      · intro hold
        exact absurd (hslot _ hold).symm htopic
    · rw [Function.update_of_ne hr]

end

/-! ## Publications -/

section

variable {s : Delivery} {topic payload : Bytes}

/-- What is taken from the arguments and the lifecycle before the store is asked. -/
structure PublishAllowed (s : Delivery) (topic payload : Bytes) : Prop where
  topic : topic.length < mqttBrokerTopicCap
  payload : payload.length < mqttBrokerPayloadCap
  running : s.sockets.stopping = false

theorem brokerPublish_cases (s : Delivery) (topic payload : Bytes) :
    (PublishAllowed s topic payload ∧ (∃ retained,
        Delivery.storeRetained s.retained topic payload = some retained ∧
          (s.brokerPublish topic payload true).2.retained = retained) ∧
        (s.brokerPublish topic payload true).1 = espOk) ∨
    (PublishAllowed s topic payload ∧ Delivery.storeRetained s.retained topic payload = none ∧
      s.brokerPublish topic payload true = (espErrNoMem, s)) ∨
    (¬ PublishAllowed s topic payload ∧ (s.brokerPublish topic payload true).1 ≠ espOk ∧
      (s.brokerPublish topic payload true).2 = s) := by
  unfold Delivery.brokerPublish
  split
  · next hlong => exact .inr (.inr ⟨fun h => absurd h.topic (Nat.not_lt.mpr hlong),
    (by decide : espErrInvalidSize ≠ espOk), rfl⟩)
  · next htopic =>
    split
    · next hlong =>
      exact .inr (.inr ⟨fun h => absurd h.payload (Nat.not_lt.mpr hlong),
        (by decide : espErrInvalidSize ≠ espOk), rfl⟩)
    · next hpayload =>
      split
      · next hstopping =>
        refine .inr (.inr ⟨fun h => ?_, (by decide : espErrInvalidState ≠ espOk), rfl⟩)
        rw [h.running] at hstopping
        cases hstopping
      · next hrunning =>
        have hallowed : PublishAllowed s topic payload :=
          ⟨Nat.not_le.mp htopic, Nat.not_le.mp hpayload, Bool.eq_false_iff.mpr hrunning⟩
        rw [if_pos rfl]
        cases hstore : Delivery.storeRetained s.retained topic payload with
        | none => exact .inr (.inl ⟨hallowed, rfl, rfl⟩)
        | some retained => exact .inl ⟨hallowed, ⟨retained, rfl, rfl⟩, rfl⟩

/-- The step of a run is the function, where the arguments and the lifecycle allow it. -/
theorem next_publish {retain : Bool} {s' : Delivery}
    (h : deliveryStep s (.publish topic payload retain) s') :
    s' = (s.brokerPublish topic payload retain).2 := by
  unfold deliveryStep at h
  dsimp only [Delivery.next] at h
  split at h
  · cases h
  · next hallowed =>
    obtain ⟨htopic, hrest⟩ := not_or.mp hallowed
    obtain ⟨hpayload, hrunning⟩ := not_or.mp hrest
    unfold Delivery.brokerPublish
    rw [if_neg htopic, if_neg hpayload, if_neg hrunning]
    generalize hstored : (if retain then Delivery.storeRetained s.retained topic payload
      else some s.retained) = stored at h ⊢
    cases stored with
    | none =>
      cases h
      rfl
    | some retained =>
      cases h
      rfl

theorem getRetained_eq {out : Bytes} {outSize : Nat} (hout : 0 < outSize) :
    s.getRetained topic out outSize =
      match payloadOf s.retained topic with
      | some p => (espOk, p.take (outSize - 1))
      | none => (espErrNotFound, []) := by
  have hbind : ((List.finRange mqttMaxRetained).find? fun r =>
      (s.retained r).any fun e => e.1 = topic).bind s.retained =
        (Slots.get topicOf s.retained topic).join := by
    unfold Slots.get
    rw [find_topic]
    cases (List.finRange mqttMaxRetained).find? fun r => topicOf (s.retained r) = some topic with
    | none => rfl
    | some r => rfl
  unfold Delivery.getRetained payloadOf
  rw [if_neg (Nat.pos_iff_ne_zero.mp hout), hbind]
  cases (Slots.get topicOf s.retained topic).join with
  | none => rfl
  | some e => rfl

end

/-! ## Runs -/

/-- Nothing but a retained publication touches the store. -/
theorem retained_kept {s s' : Delivery} {act : DeliveryAct} (hs : deliveryStep s act s')
    (hother : ∀ topic payload, act ≠ .publish topic payload true) : s'.retained = s.retained := by
  have hwritten : ∀ (t : Delivery) (sock : Int) (topic payload : Bytes) (ok : Bool),
      s.write sock topic payload ok = some t → t.retained = s.retained := by
    intro t sock topic payload ok hwrite
    rcases write_spec hwrite with ⟨-, rfl⟩ | ⟨n, -, -, rfl⟩
    · rfl
    · rfl
  cases deliveryStep_case hs with
  | full topic payload => exact absurd rfl (hother topic payload)
  | retain topic payload => exact absurd rfl (hother topic payload)
  | send j ok job sock n rest t hjob hsockets hwrite =>
    exact hwritten t _ _ _ _ hwrite
  | replaySend i ok connectionId todo topic payload t hreplay hadmitted hwrite =>
    exact hwritten t _ _ _ _ hwrite
  | sockets => rfl
  | publish => rfl
  | forward => rfl
  | subscribe => rfl
  | look => rfl
  | finish => rfl
  | abort => rfl

/-- One move of the broker, seen from the store. -/
theorem stored_step {v : DeliveryMove} (hs : deliveryStep v.pre v.ev v.post) :
    match v.stored with
    | some (topic, payload) =>
      Delivery.storeRetained v.pre.retained topic payload = some v.post.retained
    | none => v.post.retained = v.pre.retained := by
  obtain ⟨pre, act, post⟩ := v
  by_cases hact : ∃ topic payload, act = .publish topic payload true
  · obtain ⟨topic, payload, rfl⟩ := hact
    have hpost : post = (pre.brokerPublish topic payload true).2 := next_publish hs
    unfold DeliveryMove.stored
    dsimp only
    rcases brokerPublish_cases pre topic payload with
      ⟨-, ⟨retained, hstore, hretained⟩, hok⟩ | ⟨-, -, hfull⟩ | ⟨-, hrefused, hsame⟩
    · rw [if_pos hok]
      show Delivery.storeRetained pre.retained topic payload = some post.retained
      rw [hstore, hpost, hretained]
    · rw [if_neg (by rw [hfull]; exact (by decide : espErrNoMem ≠ espOk))]
      show post.retained = pre.retained
      rw [hpost, hfull]
    · rw [if_neg hrefused]
      show post.retained = pre.retained
      rw [hpost, hsame]
  · have hstored : DeliveryMove.stored ⟨pre, act, post⟩ = none := by
      unfold DeliveryMove.stored
      split
      · next topic payload hev => exact absurd ⟨topic, payload, hev⟩ hact
      · rfl
    rw [hstored]
    exact retained_kept hs fun topic payload heq => hact ⟨topic, payload, heq⟩

/-- The store holds one entry a topic, with the payload last accepted. -/
structure StoreInv (s : Delivery) (ms : List DeliveryMove) : Prop where
  one : OneEach s.retained
  last : ∀ topic, payloadOf s.retained topic = lastAccepted ms topic

theorem StoreInv.step {ms : List DeliveryMove} {v : DeliveryMove} (h : StoreInv v.pre ms)
    (hs : deliveryStep v.pre v.ev v.post) : StoreInv v.post (ms ++ [v]) := by
  have hstore := stored_step hs
  cases hstored : v.stored with
  | none =>
    rw [hstored] at hstore
    refine ⟨hstore ▸ h.one, fun topic => ?_⟩
    rw [lastAccepted_append, hstored, hstore]
    exact h.last topic
  | some e =>
    obtain ⟨topic, payload⟩ := e
    rw [hstored] at hstore
    obtain ⟨r, hupdate, honly, -⟩ := storeRetained_spec h.one hstore
    refine ⟨?_, fun topic' => ?_⟩
    · rw [hupdate]
      exact h.one.update honly
    · rw [lastAccepted_append, hstored, payloadOf_store h.one hstore, h.last]

theorem StoreInv.final {nextConnectionId : UInt64} {directory : List MachineEntry}
    {ms : List DeliveryMove} (h : IsRun deliveryStep (.start nextConnectionId directory) ms) :
    StoreInv (final (.start nextConnectionId directory) ms) ms := by
  refine h.inv_past ⟨fun _ _ _ _ _ hr => ?_, fun topic => ?_⟩ fun ns v hv hs => hv.step hs
  · cases hr
  · have hempty : payloadOf (fun _ => none) topic = none := by
      by_contra hsome
      obtain ⟨p, hp⟩ := Option.ne_none_iff_exists'.mp hsome
      obtain ⟨r, hr⟩ := (payloadOf_eq_some fun _ _ _ _ _ hr => by cases hr).mp hp
      cases hr
    exact hempty

/-- **The retained store is a bounded map** of the topics to their last accepted payloads. -/
theorem retained_map {nextConnectionId : UInt64} {directory : List MachineEntry}
    {ms : List DeliveryMove} (h : IsRun deliveryStep (.start nextConnectionId directory) ms) :
    let s := final (.start nextConnectionId directory) ms
    OneEach s.retained ∧
    (∀ topic, topic ∈ heldTopics s.retained ↔ lastAccepted ms topic ≠ none) ∧
    (∀ topic out outSize, 0 < outSize → s.getRetained topic out outSize =
      match lastAccepted ms topic with
      | some p => (espOk, p.take (outSize - 1))
      | none => (espErrNotFound, [])) ∧
    ∀ topic payload, PublishAllowed s topic payload →
      (topic ∈ heldTopics s.retained → (s.brokerPublish topic payload true).1 = espOk) ∧
      (topic ∉ heldTopics s.retained →
        ((s.brokerPublish topic payload true).1 ≠ espOk ↔
          (heldTopics s.retained).card = mqttMaxRetained)) ∧
      ((s.brokerPublish topic payload true).1 ≠ espOk →
        (s.brokerPublish topic payload true).2 = s) := by
  intro s
  have hinv : StoreInv s ms := .final h
  refine ⟨hinv.one, fun topic => ?_, fun topic out outSize hout => ?_,
    fun topic payload hallowed => ⟨fun hheld => ?_, fun hnew => ?_, fun hrefused => ?_⟩⟩
  · rw [← hinv.last, payloadOf_ne_none hinv.one]
  · rw [getRetained_eq hout, hinv.last]
  · rcases brokerPublish_cases s topic payload with ⟨-, -, hok⟩ | ⟨-, hnone, -⟩ | ⟨hno, -⟩
    · exact hok
    · exact absurd hheld ((storeRetained_eq_none hinv.one).mp hnone).1
    · exact absurd hallowed hno
  · rcases brokerPublish_cases s topic payload with
      ⟨-, ⟨retained, hstore, -⟩, hok⟩ | ⟨-, hnone, hfull⟩ | ⟨hno, -⟩
    · refine iff_of_false (not_not.mpr hok) fun hcard => ?_
      rw [(storeRetained_eq_none hinv.one).mpr ⟨hnew, hcard⟩] at hstore
      cases hstore
    · rw [hfull]
      exact iff_of_true (by decide : espErrNoMem ≠ espOk)
        ((storeRetained_eq_none hinv.one).mp hnone).2
    · exact absurd hallowed hno
  · rcases brokerPublish_cases s topic payload with ⟨-, -, hok⟩ | ⟨-, -, hfull⟩ | ⟨-, -, hsame⟩
    · exact absurd hok hrefused
    · rw [hfull]
    · exact hsame

/-- The E-stop is published twice, and once more. -/
theorem retained_map_panel :
    let s := deliveryAt [panelPublish, panelClears]
    s.getRetained (unitTopics.topic .stateEstop) [] 385 = (espOk, txt "CLEAR") ∧
      (s.brokerPublish (unitTopics.topic .stateEstop) (txt "LATCHED") true).1 = espOk := by
  obtain ⟨-, hheld, hget, hpublish⟩ :=
    retained_map (isRun_deliveryTrace (.start 0 [panelEntry]) [panelPublish, panelClears])
  exact ⟨(hget _ _ _ (by decide)).trans (by decide +kernel),
    (hpublish _ _ ⟨by decide +kernel, by decide, by decide +kernel⟩).1
      ((hheld _).mpr (by decide +kernel))⟩

end Argus
