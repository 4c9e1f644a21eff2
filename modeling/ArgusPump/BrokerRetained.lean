import ArgusPump.BrokerDelivery

/-!
# Retained values and their subscribers

The value of a topic is stored under the lock and sent after it, by each publisher for
itself, and the replay of a SUBSCRIBE sends a copy it has made before.

    a connected client keeps its session, or gives it back            (session_kept)
    what a subscriber has got is the retained value, or a send of it is still to come
                                                                     (RetainedInv.step)
    … → with every call finished, the retained value                  (last_value)
-/

namespace Argus

open Interact

/-! ## Sessions -/

/-- A connected client keeps its connection and its session slot. -/
structure KeptSession (c d : MqttClient) : Prop where
  inUse : d.inUse = c.inUse
  connected : d.connected = c.connected
  sessionSlot : d.sessionSlot = c.sessionSlot
  connectionId : d.connectionId = c.connectionId
  sock : 0 ≤ d.sock → d.sock = c.sock
  invalidated : d.securityInvalidated = false → c.securityInvalidated = false

theorem KeptSession.refl (c : MqttClient) : KeptSession c c := ⟨rfl, rfl, rfl, rfl, fun _ => rfl, id⟩

/-- The session of a connected client after a step of the records. -/
theorem session_kept {b b' : Broker} {act : BrokerAct} (h : PoolInv b) (hs : brokerStep b act b')
    {i : Fin mqttMaxConnections} {k : Fin mqttMaxClients}
    (hconnected : (b.clients i).connected = true) (hslot : (b.clients i).sessionSlot = some k) :
    KeptSession (b.clients i) (b'.clients i) ∨ act = .close i ∧ b'.sessions k = false := by
  have hupdate : ∀ (j : Fin mqttMaxConnections) (c : MqttClient), i ≠ j →
      KeptSession (b.clients i) (Function.update b.clients j c i) := by
    intro j c hij
    rw [Function.update_of_ne hij]
    exact .refl _
  cases brokerStep_move hs with
  | refuse => exact .inl (.refl _)
  | alloc sock peerKey receivingInterface sourceProven j _ _ hfree =>
    refine .inl (hupdate j _ ?_)
    rintro rfl
    cases (h.inUse i hconnected).symm.trans (Slots.firstFree_spec hfree)
  | goto => exact .inl (.refl _)
  | capture => exact .inl (.refl _)
  | lookup => exact .inl (.refl _)
  | bound j verified request cid g found principal l htask hrecord hallowed =>
    refine .inl (hupdate j _ ?_)
    rintro rfl
    cases hconnected.symm.trans (bindAllowed_spec hallowed).2.1
  | abandon j htask =>
    refine .inl (hupdate j _ ?_)
    rintro rfl
    cases hconnected.symm.trans (h.created i htask)
  | close j =>
    by_cases hij : i = j
    · subst hij
      refine .inr ⟨rfl, ?_⟩
      show b.sessionRelease i k = false
      rw [sessionRelease_apply, if_pos hslot]
    · exact .inl (hupdate j _ hij)
  | commit => exact .inl (.refl _)
  | fence identifier =>
    refine .inl ?_
    unfold Broker.fenceMachineAuthentication
    dsimp only
    split
    · dsimp only
      split
      · exact ⟨rfl, rfl, rfl, rfl, fun _ => rfl, nofun⟩
      · exact .refl _
    · exact .refl _
  | claim identifier =>
    refine .inl ?_
    unfold Broker.claimDisconnect
    dsimp only
    split
    · exact ⟨rfl, rfl, rfl, rfl, fun _ => rfl, nofun⟩
    · exact .refl _
  | release t =>
    refine .inl ?_
    unfold Broker.releaseDisconnectClaim
    dsimp only
    split
    · by_cases hslot : i = t.slot
      · subst hslot
        rw [Function.update_self]
        exact ⟨rfl, rfl, rfl, rfl, fun _ => rfl, id⟩
      · exact hupdate _ _ hslot
    · exact .refl _

theorem socketStep_session {s s' : Sockets} {act : SocketAct} (h : PoolInv s.broker)
    (hs : socketStep s act s') {i : Fin mqttMaxConnections} {k : Fin mqttMaxClients}
    (hconnected : (s.broker.clients i).connected = true)
    (hslot : (s.broker.clients i).sessionSlot = some k) :
    KeptSession (s.broker.clients i) (s'.broker.clients i) ∨
      act = .records (.close i) ∧ s'.broker.sessions k = false := by
  rcases Sockets.next_broker hs with hsame | ⟨ract, rfl, hb⟩ | ⟨-, rfl⟩
  · rw [hsame]
    exact .inl (.refl _)
  · refine (session_kept h hb hconnected hslot).imp_right ?_
    rintro ⟨rfl, hsession⟩
    exact ⟨rfl, hsession⟩
  · refine .inl ?_
    unfold Sockets.retireSockets
    dsimp only
    split
    · exact ⟨rfl, rfl, rfl, rfl, fun hsock => absurd (show (0 : Int) ≤ -1 from hsock) (by decide), id⟩
    · exact .refl _

/-! ## The store -/

/-- One entry a topic. -/
def OneEach (retained : Fin mqttMaxRetained → Option (Bytes × Bytes)) : Prop :=
  ∀ r r' topic p p', retained r = some (topic, p) → retained r' = some (topic, p') → r = r'

/-- A store rewrites the entry of the topic, or a free one. -/
theorem storeRetained_spec {retained retained' : Fin mqttMaxRetained → Option (Bytes × Bytes)}
    {topic payload : Bytes} (hone : OneEach retained)
    (h : Delivery.storeRetained retained topic payload = some retained') :
    ∃ r, retained' = Function.update retained r (some (topic, payload)) ∧
      (∀ r' p, retained r' = some (topic, p) → r' = r) ∧ ∀ e, retained r = some e → e.1 = topic := by
  unfold Delivery.storeRetained at h
  obtain ⟨r, hslot, rfl⟩ := Option.map_eq_some_iff.mp h
  refine ⟨r, rfl, ?_⟩
  cases hfind : (List.finRange mqttMaxRetained).find? fun r =>
      (retained r).any fun e => e.1 = topic with
  | some found =>
    rw [hfind] at hslot
    cases hslot
    have hfound := List.find?_some hfind
    obtain ⟨⟨topic', p'⟩, hentry, htopic⟩ := Option.any_eq_true _ _ |>.mp hfound
    obtain rfl := of_decide_eq_true htopic
    refine ⟨fun r' p hr' => hone r' r _ p p' hr' hentry, fun e he => ?_⟩
    cases hentry.symm.trans he
    rfl
  | none =>
    rw [hfind] at hslot
    refine ⟨fun r' p hr' => ?_, fun e he => ?_⟩
    · have hnot := List.find?_eq_none.mp hfind r' (List.mem_finRange r')
      rw [hr'] at hnot
      simp at hnot
    · have hfree := Slots.firstFree_spec hslot
      rw [he] at hfree
      cases hfree

theorem OneEach.update {retained : Fin mqttMaxRetained → Option (Bytes × Bytes)}
    (h : OneEach retained) {r : Fin mqttMaxRetained} {topic payload : Bytes}
    (honly : ∀ r' p, retained r' = some (topic, p) → r' = r) :
    OneEach (Function.update retained r (some (topic, payload))) := by
  intro r1 r2 topic' p p' h1 h2
  rw [Function.update_apply] at h1 h2
  split_ifs at h1 h2 with hr1 hr2 hr2
  · rw [hr1, hr2]
  · cases h1
    exact absurd (honly r2 p' h2) hr2
  · cases h2
    exact absurd (honly r1 p h1) hr1
  · exact h r1 r2 topic' p p' h1 h2

/-! ## The invariant -/

/-- An admitted client with a subscription to the topic, its descriptor not taken by the stop. -/
structure Subscribed (s : Delivery) (i : Fin mqttMaxConnections) (topic : Bytes) : Prop where
  inUse : (s.client i).inUse = true
  connected : (s.client i).connected = true
  valid : (s.client i).securityInvalidated = false
  sock : 0 ≤ (s.client i).sock
  filter : ∃ k, (s.client i).sessionSlot = some k ∧
    (s.subscriptions k).any (topicMatches · topic) = true

/-- The last payload a connection has got on a topic. -/
def Delivery.lastReceived (s : Delivery) (n : Nat) (topic : Bytes) : Option Bytes :=
  (s.received.find? fun e => e.1 = n ∧ e.2.1 = topic).map fun e => e.2.2

/-- The replay is still to send entry `r`. -/
def Replay.Owes (rp : Replay) (r : Fin mqttMaxRetained) (topic : Bytes) : Prop :=
  (∃ f, (f, r) ∈ rp.todo ∧ topicMatches f topic = true) ∨ ∃ p, rp.copy = some (topic, p)

/-- A send of entry `r` to client `i` is still to come. -/
def Coming (s : Delivery) (i : Fin mqttMaxConnections) (r : Fin mqttMaxRetained) (topic : Bytes) :
    Prop :=
  (∃ job ∈ s.jobs, job.topic = topic ∧ ∃ e ∈ job.sockets, e.1 = (s.client i).sock) ∨
    ∃ rp, s.replays i = some rp ∧ rp.Owes r topic

structure RetainedInv (s : Delivery) : Prop where
  sockets : ShutdownInv s.sockets
  one : OneEach s.retained
  /-- What is still to be sent is what the store holds. -/
  job : ∀ job ∈ s.jobs, job.sockets ≠ [] → ∀ r p, s.retained r = some (job.topic, p) →
    job.payload = p
  copy : ∀ i rp topic payload, s.replays i = some rp → rp.copy = some (topic, payload) →
    ∀ r p, s.retained r = some (topic, p) → payload = p
  replay : ∀ i rp, s.replays i = some rp → (s.client i).connected = true ∧
    (s.client i).connectionId = rp.connectionId
  served : ∀ i topic r p, Subscribed s i topic → s.retained r = some (topic, p) →
    s.lastReceived (s.sockets.connection i) topic = some p ∨ Coming s i r topic

theorem RetainedInv.start (nextConnectionId : UInt64) (directory : List MachineEntry) :
    RetainedInv (.start nextConnectionId directory) where
  sockets := .start _ _
  one _ _ _ _ _ h := by cases h
  job _ h := absurd h List.not_mem_nil
  copy _ _ _ _ h := by cases h
  replay _ _ h := by cases h
  served _ _ _ _ _ h := by cases h

theorem Subscribed.same {s t : Delivery} {i : Fin mqttMaxConnections} {topic : Bytes}
    (h : Subscribed t i topic) (hclient : t.client i = s.client i)
    (hsubscriptions : t.subscriptions = s.subscriptions) : Subscribed s i topic where
  inUse := hclient ▸ h.inUse
  connected := hclient ▸ h.connected
  valid := hclient ▸ h.valid
  sock := hclient ▸ h.sock
  filter := by
    rw [← hclient, ← hsubscriptions]
    exact h.filter

/-- A subscriber is collected: there are no more of them than descriptors to copy. -/
theorem Subscribed.collected {s : Delivery} {i : Fin mqttMaxConnections} {topic : Bytes}
    (h : Subscribed s i topic) (hpool : PoolInv s.sockets.broker) :
    ((s.client i).sock, s.sockets.connection i) ∈ s.collectSubscribers topic := by
  have hspec : ∀ j e, s.subscriber topic j = some e →
      (s.client j).authenticated = true := by
    intro j e hj
    unfold Delivery.subscriber at hj
    dsimp only at hj
    split at hj
    · cases hj
    · split at hj
      · next hguard =>
        unfold MqttClient.authenticated
        rw [hguard.1, hguard.2.1]
        rfl
      · cases hj
  have hlength : ((List.finRange mqttMaxConnections).filterMap (s.subscriber topic)).length ≤
      mqttMaxClients := by
    refine le_trans (Slots.length_filterMap_le fun j hj => ?_) hpool.authenticated
    obtain ⟨e, he⟩ := Option.isSome_iff_exists.mp hj
    exact hspec j e he
  unfold Delivery.collectSubscribers
  rw [List.take_of_length_le hlength, List.mem_filterMap]
  refine ⟨i, List.mem_finRange i, ?_⟩
  obtain ⟨k, hslot, hany⟩ := h.filter
  unfold Delivery.subscriber
  dsimp only
  rw [hslot]
  exact if_pos ⟨h.inUse, h.connected, h.sock, hany⟩

/-! ## Sends -/

theorem lastReceived_cons (s : Delivery) (n m : Nat) (topic topic' payload : Bytes) :
    Delivery.lastReceived { s with received := (n, topic, payload) :: s.received } m topic' =
      if n = m ∧ topic = topic' then some payload else s.lastReceived m topic' := by
  unfold Delivery.lastReceived
  rw [List.find?_cons]
  split
  · next h =>
    rw [if_pos (of_decide_eq_true h)]
    rfl
  · next h => rw [if_neg (of_decide_eq_false h)]

/-- A send that carries what the store holds, to connection `n`. -/
structure CurrentWrite (s : Delivery) (n : Nat) (sock : Int) (topic payload : Bytes) : Prop where
  /-- It disturbs nobody. -/
  keeps : ∀ m topic' r p, s.retained r = some (topic', p) → s.lastReceived m topic' = some p →
    Delivery.lastReceived { s with received := (n, topic, payload) :: s.received } m topic' = some p
  /-- It serves the client that has the descriptor. -/
  serves : ∀ i r p, (s.client i).inUse = true → 0 ≤ (s.client i).sock → (s.client i).sock = sock →
    s.retained r = some (topic, p) →
      Delivery.lastReceived { s with received := (n, topic, payload) :: s.received }
        (s.sockets.connection i) topic = some p

theorem RetainedInv.write {s t : Delivery} {sock : Int} {topic payload : Bytes} (h : RetainedInv s)
    (hwrite : s.write sock topic payload true = some t)
    (hcurrent : ∀ r p, s.retained r = some (topic, p) → payload = p) :
    ∃ n, t = { s with received := (n, topic, payload) :: s.received } ∧
      CurrentWrite s n sock topic payload := by
  rcases write_spec hwrite with ⟨hok, -⟩ | ⟨n, -, howner, rfl⟩
  · cases hok
  · refine ⟨n, rfl, fun m topic' r p hr hlast => ?_, fun i r p hi hnonneg hsock hr => ?_⟩
    · rw [lastReceived_cons]
      split
      · next hsame =>
        obtain ⟨-, rfl⟩ := hsame
        rw [hcurrent r p hr]
      · exact hlast
    · have hheld : s.sockets.owner (s.client i).sock = some (s.sockets.connection i) :=
        h.sockets.descriptors.held i hi hnonneg
      rw [hsock, howner] at hheld
      rw [lastReceived_cons, if_pos ⟨Option.some.inj hheld, rfl⟩, hcurrent r p hr]

theorem mem_set_or {α : Type} {l : List α} {j : Nat} {a b x : α} (hj : l[j]? = some a)
    (hx : x ∈ l) : x ∈ l.set j b ∨ x = a := by
  obtain ⟨n, hn, rfl⟩ := List.mem_iff_getElem.mp hx
  by_cases hnj : n = j
  · subst hnj
    rw [List.getElem?_eq_getElem hn] at hj
    exact .inr (Option.some.inj hj)
  · refine .inl (List.mem_iff_getElem.mpr ⟨n, by rwa [List.length_set], ?_⟩)
    rw [List.getElem_set_ne (Ne.symm hnj)]

/-- The next send of a publication. -/
theorem RetainedInv.send {s t : Delivery} {j : Nat} {job : SendJob} {sock : Int} {n : Nat}
    {rest : List (Int × Nat)} (h : RetainedInv s) (hjob : s.jobs[j]? = some job)
    (hsockets : job.sockets = (sock, n) :: rest)
    (hwrite : s.write sock job.topic job.payload true = some t) :
    RetainedInv { t with jobs := s.jobs.set j { job with sockets := rest } } := by
  have hmem : job ∈ s.jobs := List.mem_of_getElem? hjob
  have hcurrent : ∀ r p, s.retained r = some (job.topic, p) → job.payload = p :=
    h.job job hmem (by rw [hsockets]; nofun)
  obtain ⟨m, rfl, hsent⟩ := h.write hwrite hcurrent
  refine ⟨h.sockets, h.one, fun job' hjob' hne r p hr => ?_, h.copy, h.replay,
    fun i topic r p hsub hr => ?_⟩
  · rcases List.mem_or_eq_of_mem_set hjob' with hold | rfl
    · exact h.job job' hold hne r p hr
    · exact hcurrent r p hr
  · have hsub : Subscribed s i topic := hsub.same rfl rfl
    rcases h.served i topic r p hsub hr with hlast | ⟨job', hjob', htopic, e, he, hsock⟩ | hreplay
    · exact .inl (hsent.keeps _ topic r p hr hlast)
    · rcases mem_set_or (b := { job with sockets := rest }) hjob hjob' with hset | rfl
      · exact .inr (.inl ⟨job', hset, htopic, e, he, hsock⟩)
      · rw [hsockets] at he
        rcases List.mem_cons.mp he with rfl | he
        · subst htopic
          exact .inl (hsent.serves i r p hsub.inUse hsub.sock hsock.symm hr)
        · refine .inr (.inl ⟨{ job' with sockets := rest }, ?_, htopic, e, he, hsock⟩)
          exact List.mem_iff_getElem?.mpr ⟨j, by
            rw [List.getElem?_set_self (List.getElem?_eq_some_iff.mp hjob).1]⟩
    · exact .inr (.inr hreplay)

/-- The replay of one client goes on to `next`, maybe with a send: what it copies is in the
store, and what it owed is sent or still owed. -/
theorem RetainedInv.replayNext {s : Delivery} {i : Fin mqttMaxConnections} {next : Option Replay}
    {received : List (Nat × Bytes × Bytes)} (h : RetainedInv s)
    (hcopy : ∀ rp topic payload, next = some rp → rp.copy = some (topic, payload) →
      ∀ r p, s.retained r = some (topic, p) → payload = p)
    (hclient : ∀ rp, next = some rp → (s.client i).connected = true ∧
      (s.client i).connectionId = rp.connectionId)
    (hkeeps : ∀ m topic r p, s.retained r = some (topic, p) → s.lastReceived m topic = some p →
      Delivery.lastReceived { s with received := received } m topic = some p)
    (howed : ∀ topic r p, Subscribed s i topic → s.retained r = some (topic, p) →
      ∀ rp, s.replays i = some rp → rp.Owes r topic →
        Delivery.lastReceived { s with received := received } (s.sockets.connection i) topic =
            some p ∨
          ∃ rp', next = some rp' ∧ rp'.Owes r topic) :
    RetainedInv { s with replays := Function.update s.replays i next, received := received } := by
  refine ⟨h.sockets, h.one, h.job, fun j rp topic payload hrp => ?_, fun j rp hrp => ?_,
    fun j topic r p hsub hr => ?_⟩
  · dsimp only at hrp
    rw [Function.update_apply] at hrp
    split at hrp
    · exact hcopy rp topic payload hrp
    · exact h.copy j rp topic payload hrp
  · dsimp only at hrp
    rw [Function.update_apply] at hrp
    split at hrp
    · next hji =>
      subst hji
      exact hclient rp hrp
    · exact h.replay j rp hrp
  · have hbefore : Subscribed s j topic := hsub.same rfl rfl
    rcases h.served j topic r p hbefore hr with hlast | hjobs | ⟨rp, hrp, howes⟩
    · exact .inl (hkeeps _ topic r p hr hlast)
    · exact .inr (.inl hjobs)
    · by_cases hji : j = i
      · subst hji
        rcases howed topic r p hbefore hr rp hrp howes with hsent | ⟨rp', hnext, howes'⟩
        · exact .inl hsent
        · exact .inr (.inr ⟨rp', (Function.update_self _ _ _).trans hnext, howes'⟩)
      · exact .inr (.inr ⟨rp, (Function.update_of_ne hji _ _).trans hrp, howes⟩)

/-- The send of a copied entry. -/
theorem RetainedInv.replaySend {s t : Delivery} {i : Fin mqttMaxConnections} {connectionId : UInt64}
    {todo : List (Bytes × Fin mqttMaxRetained)} {topic payload : Bytes} (h : RetainedInv s)
    (hreplay : s.replays i = some ⟨connectionId, todo, some (topic, payload)⟩)
    (hwrite : s.write (s.client i).sock topic payload true = some t) :
    RetainedInv { t with
      replays := Function.update s.replays i (some ⟨connectionId, todo, none⟩) } := by
  have hcurrent : ∀ r p, s.retained r = some (topic, p) → payload = p :=
    h.copy i _ topic payload hreplay rfl
  obtain ⟨m, rfl, hsent⟩ := h.write hwrite hcurrent
  refine h.replayNext (fun rp topic' payload' hnext hcopy => ?_) (fun rp hnext => ?_) hsent.keeps
    fun topic' r p hsub hr rp hrp howes => ?_
  · cases hnext
    cases hcopy
  · cases hnext
    obtain ⟨hconnected, hid⟩ := h.replay i _ hreplay
    exact ⟨hconnected, hid⟩
  · cases hreplay.symm.trans hrp
    rcases howes with htodo | ⟨p', hcopy⟩
    · exact .inr ⟨_, rfl, .inl htodo⟩
    · cases hcopy
      exact .inl (hsent.serves i r p hsub.inUse hsub.sock rfl hr)

/-- The replay looks at an entry. -/
theorem RetainedInv.look {s : Delivery} {i : Fin mqttMaxConnections} {connectionId : UInt64}
    {f : Bytes} {r : Fin mqttMaxRetained} {todo : List (Bytes × Fin mqttMaxRetained)}
    (h : RetainedInv s) (hreplay : s.replays i = some ⟨connectionId, (f, r) :: todo, none⟩) :
    RetainedInv { s with
      replays := Function.update s.replays i (some ⟨connectionId, todo,
        (s.retained r).filter fun e => topicMatches f e.1⟩) } := by
  refine h.replayNext (fun rp topic payload hnext hcopy r' p hr' => ?_) (fun rp hnext => ?_)
    (fun _ _ _ _ _ hlast => hlast) fun topic r' p _ hr' rp hrp howes => ?_
  · cases hnext
    obtain ⟨hr, -⟩ := Option.filter_eq_some_iff.mp hcopy
    obtain rfl := h.one r r' topic payload p hr hr'
    cases hr.symm.trans hr'
    rfl
  · cases hnext
    obtain ⟨hconnected, hid⟩ := h.replay i _ hreplay
    exact ⟨hconnected, hid⟩
  · cases hreplay.symm.trans hrp
    refine .inr ⟨_, rfl, ?_⟩
    rcases howes with ⟨f', hmem, hmatch⟩ | ⟨p', hcopy⟩
    · rcases List.mem_cons.mp hmem with heq | hmem
      · cases heq
        exact .inr ⟨p, Option.filter_eq_some_iff.mpr ⟨hr', hmatch⟩⟩
      · exact .inl ⟨f', hmem, hmatch⟩
    · cases hcopy

/-- The replay is through. -/
theorem RetainedInv.finish {s : Delivery} {i : Fin mqttMaxConnections} {connectionId : UInt64}
    (h : RetainedInv s) (hreplay : s.replays i = some ⟨connectionId, [], none⟩) :
    RetainedInv { s with replays := Function.update s.replays i none } := by
  refine h.replayNext nofun nofun (fun _ _ _ _ _ hlast => hlast) fun topic r p _ _ rp hrp howes => ?_
  cases hreplay.symm.trans hrp
  rcases howes with ⟨f, hmem, -⟩ | ⟨p', hcopy⟩
  · cases hmem
  · cases hcopy

/-! ## The other steps -/

/-- A publication is collected; `retained` is the store with it. -/
theorem RetainedInv.collect {s : Delivery} {task : Option (Fin mqttMaxConnections)}
    {topic payload : Bytes} {retain : Bool}
    {retained : Fin mqttMaxRetained → Option (Bytes × Bytes)} (h : RetainedInv s)
    (hone : OneEach retained)
    (hother : ∀ r topic' p, topic' ≠ topic → (retained r = some (topic', p) ↔
      s.retained r = some (topic', p)))
    (hvalue : ∀ r p, retained r = some (topic, p) → payload = p)
    (hjobs : ∀ r p, retained r = some (topic, p) →
      (∀ job ∈ s.jobs, job.topic = topic → job.sockets = []) ∧
      ∀ i rp, s.replays i = some rp → ∀ p, rp.copy ≠ some (topic, p)) :
    RetainedInv { s with
      retained := retained
      jobs := s.jobs ++ [⟨task, s.collectSubscribers topic, topic, payload, retain⟩] } := by
  refine ⟨h.sockets, hone, fun job hjob hne r p hr => ?_, fun i rp topic' payload' hrp hcopy r p hr => ?_,
    h.replay, fun i topic' r p hsub hr => ?_⟩
  · rcases List.mem_append.mp hjob with hold | hnew
    · by_cases htopic : job.topic = topic
      · exact absurd ((hjobs r p (htopic ▸ hr)).1 job hold htopic) hne
      · exact h.job job hold hne r p ((hother r _ p htopic).mp hr)
    · rw [List.mem_singleton.mp hnew] at hr ⊢
      exact hvalue r p hr
  · by_cases htopic : topic' = topic
    · subst htopic
      exact absurd hcopy ((hjobs r p hr).2 i rp hrp payload')
    · exact h.copy i rp topic' payload' hrp hcopy r p ((hother r topic' p htopic).mp hr)
  · have hsub : Subscribed s i topic' := hsub.same rfl rfl
    by_cases htopic : topic' = topic
    · subst htopic
      refine .inr (.inl ⟨_, List.mem_append_right _ (List.mem_singleton_self _), rfl, _,
        hsub.collected h.sockets.pool, rfl⟩)
    · refine (h.served i topic' r p hsub ((hother r topic' p htopic).mp hr)).imp_right ?_
      rintro (⟨job, hjob, hcoming⟩ | hreplay)
      · exact .inl ⟨job, List.mem_append_left _ hjob, hcoming⟩
      · exact .inr hreplay

/-- A SUBSCRIBE: every entry is still to be looked at for its filters. -/
theorem RetainedInv.subscribe {s : Delivery} {i : Fin mqttMaxConnections} {filters : List Bytes}
    {k : Fin mqttMaxClients} (h : RetainedInv s) (hslot : (s.client i).sessionSlot = some k)
    (hidle : s.replays i = none)
    (hadmitted : (s.client i).admitted (s.client i).connectionId = true) :
    RetainedInv { s with
      subscriptions := Function.update s.subscriptions k (s.subscriptions k ++ filters)
      replays := Function.update s.replays i (some ⟨(s.client i).connectionId,
        filters.flatMap fun f => (List.finRange mqttMaxRetained).map (f, ·), none⟩) } := by
  have hstarted : RetainedInv { s with
      replays := Function.update s.replays i (some ⟨(s.client i).connectionId,
        filters.flatMap fun f => (List.finRange mqttMaxRetained).map (f, ·), none⟩) } := by
    refine h.replayNext (fun rp topic payload hnext hcopy => ?_) (fun rp hnext => ?_)
      (fun _ _ _ _ _ hlast => hlast) fun topic r p _ _ rp hrp => ?_
    · cases hnext
      cases hcopy
    · cases hnext
      unfold MqttClient.admitted at hadmitted
      simp only [Bool.and_eq_true] at hadmitted
      exact ⟨hadmitted.1.1.2, rfl⟩
    · cases hidle.symm.trans hrp
  refine ⟨h.sockets, h.one, h.job, hstarted.copy, hstarted.replay, fun j topic r p hsub hr => ?_⟩
  obtain ⟨l, hl, hany⟩ := hsub.filter
  have hold : (s.subscriptions l).any (topicMatches · topic) = true →
      s.lastReceived (s.sockets.connection j) topic = some p ∨ Coming { s with
        replays := Function.update s.replays i (some ⟨(s.client i).connectionId,
          filters.flatMap fun f => (List.finRange mqttMaxRetained).map (f, ·), none⟩) } j r topic :=
    fun hbefore => hstarted.served j topic r p
      ⟨hsub.inUse, hsub.connected, hsub.valid, hsub.sock, l, hl, hbefore⟩ hr
  dsimp only at hany
  rw [Function.update_apply] at hany
  split at hany
  · next hlk =>
    subst hlk
    rw [List.any_append, Bool.or_eq_true] at hany
    rcases hany with hbefore | hnew
    · exact hold hbefore
    · -- a new filter: its replay has all entries before it
      obtain rfl : j = i := h.sockets.pool.apart j i l hl hslot
      obtain ⟨f, hf, hmatch⟩ := List.any_eq_true.mp hnew
      refine .inr (.inr ⟨_, Function.update_self _ _ _, .inl ⟨f, ?_, hmatch⟩⟩)
      exact List.mem_flatMap.mpr ⟨f, hf, List.mem_map.mpr ⟨r, List.mem_finRange r, rfl⟩⟩
  · exact hold hany

/-- A subscriber after a step of the sockets was one before. -/
theorem subscribed_before {s : Delivery} {w : Sockets} {act : SocketAct}
    (h : ShutdownInv s.sockets) (hs : socketStep s.sockets act w) {i : Fin mqttMaxConnections}
    {topic : Bytes}
    (hsub : Subscribed { s with sockets := w, subscriptions := s.subscriptionsAfter w.broker } i
      topic) :
    Subscribed s i topic ∧ (w.broker.clients i).sock = (s.client i).sock := by
  obtain ⟨k, hslot, hany⟩ := hsub.filter
  dsimp only at hany
  unfold Delivery.subscriptionsAfter at hany
  split at hany
  · next hused =>
    -- the slot has belonged to one record all along
    obtain ⟨j, hconnected, hjslot⟩ := h.pool.owner k hused.1
    rcases socketStep_session h.pool hs hconnected hjslot with hkept | ⟨-, hreleased⟩
    · have hji : j = i := (h.step hs).pool.apart j i k (hkept.sessionSlot.trans hjslot) hslot
      subst hji
      have hsock := hkept.sock hsub.sock
      refine ⟨⟨hkept.inUse.symm.trans hsub.inUse, hconnected, hkept.invalidated hsub.valid, ?_, k,
        hjslot, hany⟩, hsock⟩
      unfold Delivery.client
      rw [← hsock]
      exact hsub.sock
    · cases hreleased.symm.trans hused.2
  · cases hany

theorem RetainedInv.sockets_step {s : Delivery} {w : Sockets} {act : SocketAct} (h : RetainedInv s)
    (hallows : s.allows act = true) (hs : socketStep s.sockets act w) :
    RetainedInv { s with sockets := w, subscriptions := s.subscriptionsAfter w.broker } := by
  refine ⟨h.sockets.step hs, h.one, h.job, h.copy, fun i rp hrp => ?_, fun i topic r p hsub hr => ?_⟩
  · obtain ⟨hconnected, hid⟩ := h.replay i rp hrp
    obtain ⟨k, hslot, -⟩ := h.sockets.pool.slot i hconnected
    rcases socketStep_session h.sockets.pool hs hconnected hslot with hkept | ⟨rfl, -⟩
    · exact ⟨hkept.connected.trans hconnected, hkept.connectionId.trans hid⟩
    · -- a task in a replay does not close its record
      unfold Delivery.allows Delivery.busy at hallows
      dsimp only at hallows
      rw [hrp] at hallows
      cases hallows
  · obtain ⟨hbefore, hsock⟩ := subscribed_before h.sockets hs hsub
    have hconnection : w.connection i = s.sockets.connection i :=
      socketStep_connection hs hbefore.inUse
    dsimp only
    rw [hconnection]
    refine (h.served i topic r p hbefore hr).imp_right ?_
    rintro (⟨job, hjob, htopic, e, he, heq⟩ | hreplay)
    · exact .inl ⟨job, hjob, htopic, e, he, heq.trans hsock.symm⟩
    · exact .inr hreplay

theorem socketStep_leave {s w : Sockets} {i : Fin mqttMaxConnections}
    (h : socketStep s (.records (.leave i)) w) :
    w = { s with broker := s.broker.goto i .leaving } := by
  obtain ⟨b, hb, hafter⟩ := Option.bind_eq_some_iff.mp h
  obtain ⟨-, rfl⟩ := leave_next hb
  cases hafter
  rfl

/-- The replay of a client that is no longer admitted ends. -/
theorem RetainedInv.abort {s : Delivery} {i : Fin mqttMaxConnections} {rp : Replay} {w : Sockets}
    (h : RetainedInv s) (hreplay : s.replays i = some rp)
    (hadmitted : (s.client i).admitted rp.connectionId = false)
    (hs : socketStep s.sockets (.records (.leave i)) w) :
    RetainedInv { s with sockets := w, replays := Function.update s.replays i none } := by
  have hsockets := h.sockets.step hs
  obtain rfl := socketStep_leave hs
  have hended : RetainedInv { s with replays := Function.update s.replays i none } := by
    refine h.replayNext nofun nofun (fun _ _ _ _ _ hlast => hlast) fun topic r p hsub _ _ _ _ => ?_
    obtain ⟨hconnected, hid⟩ := h.replay i rp hreplay
    unfold MqttClient.admitted at hadmitted
    rw [hsub.inUse, hconnected, hsub.valid, hid] at hadmitted
    simp at hadmitted
  exact ⟨hsockets, hended.one, hended.job, hended.copy, hended.replay,
    fun j topic r p hsub => hended.served j topic r p (hsub.same rfl rfl)⟩

/-! ## The last value -/

namespace Delivery

/-- A send of the topic is under way. -/
def sending (s : Delivery) (topic : Bytes) : Bool :=
  (s.jobs.any fun job => job.topic = topic && !job.sockets.isEmpty) ||
    (List.finRange mqttMaxConnections).any fun i =>
      (s.replays i).any fun rp => rp.copy.any fun e => e.1 = topic

def holds (s : Delivery) (topic : Bytes) : Bool :=
  (List.finRange mqttMaxRetained).any fun r => (s.retained r).any fun e => e.1 = topic

/-- No send fails, and what the store holds is published to be retained. -/
def retains (s : Delivery) : DeliveryAct → Bool
  | .send _ ok | .replaySend _ ok => ok
  | .publish topic _ retain => retain || !s.holds topic
  | .forward _ topic _ => !s.holds topic
  | _ => true

/-- A value is stored when no send of its topic is under way. -/
def settled (s : Delivery) : DeliveryAct → Bool
  | .publish topic _ true => !s.sending topic
  | _ => true

end Delivery

theorem not_sending {s : Delivery} {topic : Bytes} (h : s.sending topic = false) :
    (∀ job ∈ s.jobs, job.topic = topic → job.sockets = []) ∧
      ∀ i rp, s.replays i = some rp → ∀ p, rp.copy ≠ some (topic, p) := by
  unfold Delivery.sending at h
  obtain ⟨hjobs, hreplays⟩ := Bool.or_eq_false_iff.mp h
  constructor
  · intro job hjob htopic
    have hnot := List.any_eq_false.mp hjobs job hjob
    simpa [htopic] using hnot
  · intro i rp hrp p hcopy
    have hnot := List.any_eq_false.mp hreplays i (List.mem_finRange i)
    rw [hrp] at hnot
    simp [hcopy] at hnot

theorem not_holds {s : Delivery} {topic : Bytes} (h : s.holds topic = false) (r : Fin mqttMaxRetained)
    (p : Bytes) : s.retained r ≠ some (topic, p) := by
  intro hr
  have hnot := List.any_eq_false.mp h r (List.mem_finRange r)
  simp [hr] at hnot

theorem RetainedInv.step {s s' : Delivery} {act : DeliveryAct} (h : RetainedInv s)
    (hs : deliveryStep s act s') (hrun : s.retains act = true) (hmet : s.settled act = true) :
    RetainedInv s' := by
  cases deliveryStep_case hs with
  | sockets act w hallows hw => exact h.sockets_step hallows hw
  | full => exact h
  | retain topic payload retained hstore =>
    obtain ⟨r, rfl, honly, hentry⟩ := storeRetained_spec h.one hstore
    refine h.collect (h.one.update honly) (fun r' topic' p hne => ?_) (fun r' p hr' => ?_)
      fun _ _ _ => not_sending (Bool.not_eq_true' _ |>.mp hmet)
    · rw [Function.update_apply]
      split
      · next heq =>
        subst heq
        refine ⟨fun hnew => ?_, fun hold => absurd (hentry _ hold) hne⟩
        cases hnew
        exact absurd rfl hne
      · exact Iff.rfl
    · rw [Function.update_apply] at hr'
      split at hr'
      · cases hr'
        rfl
      · next hne => exact absurd (honly r' p hr') hne
  | publish topic payload =>
    have hnone := not_holds (Bool.not_eq_true' _ |>.mp hrun)
    exact h.collect h.one (fun _ _ _ _ => Iff.rfl) (fun r p hr => absurd hr (hnone r p))
      fun r p hr => absurd hr (hnone r p)
  | forward i topic payload =>
    have hnone := not_holds (Bool.not_eq_true' _ |>.mp hrun)
    exact h.collect h.one (fun _ _ _ _ => Iff.rfl) (fun r p hr => absurd hr (hnone r p))
      fun r p hr => absurd hr (hnone r p)
  | send j ok job sock n rest t hjob hsockets hwrite =>
    cases ok with
    | false => cases hrun
    | true => exact h.send hjob hsockets hwrite
  | subscribe i filters k hslot htask hidle hadmitted => exact h.subscribe hslot hidle hadmitted
  | look i connectionId f r todo hreplay => exact h.look hreplay
  | finish i connectionId hreplay => exact h.finish hreplay
  | replaySend i ok connectionId todo topic payload t hreplay hadmitted hwrite =>
    cases ok with
    | false => cases hrun
    | true => exact h.replaySend hreplay hwrite
  | abort i ok rp w hreplay hadmitted hw => exact h.abort hreplay hadmitted hw

/-- No call is under way: every publication is sent and every replay is through. -/
structure CallsFinished (s : Delivery) : Prop where
  publications : ∀ job ∈ s.jobs, job.sockets = []
  replays : ∀ i, s.replays i = none

/-- **Last value agreement**, in a run in which a retained value is stored only when no send
of its topic is under way. -/
theorem last_value {nextConnectionId : UInt64} {directory : List MachineEntry}
    {ms : List DeliveryMove} (h : IsRun deliveryStep (.start nextConnectionId directory) ms)
    (hrun : ∀ v ∈ ms, v.pre.retains v.ev = true) (hmet : ∀ v ∈ ms, v.pre.settled v.ev = true) :
    let s := final (.start nextConnectionId directory) ms
    CallsFinished s → ∀ i topic r p, Subscribed s i topic → s.retained r = some (topic, p) →
      s.lastReceived (s.sockets.connection i) topic = some p := by
  intro s hfinished i topic r p hsub hr
  have hinv : RetainedInv s := (h.inv_of (RetainedInv.start nextConnectionId directory)
    (K := fun v => v.pre.retains v.ev = true ∧ v.pre.settled v.ev = true)
    (fun v hv => ⟨hrun v hv, hmet v hv⟩)
    fun v hv hs hv' => hv.step hs hv'.1 hv'.2).2
  rcases hinv.served i topic r p hsub hr with hlast | ⟨job, hjob, -, e, he, -⟩ | ⟨rp, hrp, -⟩
  · exact hlast
  · rw [hfinished.publications job hjob] at he
    cases he
  · cases (hfinished.replays i).symm.trans hrp

/-! ### A panel -/

def panelClears : DeliveryAct := .publish (unitTopics.topic .stateEstop) (txt "CLEAR") true

/-- The panel gets the value the store holds when it subscribes, then the next one. -/
def panelAgrees : List DeliveryAct :=
  panelPublish :: panelSocket.map .sockets ++
    [.subscribe 0 [unitFilter], .replay 0, .replaySend 0 true] ++
    List.replicate 40 (.replay 0) ++ [panelClears, .send 1 true]

theorem subscribed_panel {s : Delivery} {topic : Bytes} (hinUse : (s.client 0).inUse = true)
    (hconnected : (s.client 0).connected = true)
    (hvalid : (s.client 0).securityInvalidated = false) (hsock : (s.client 0).sock = 54)
    (hslot : (s.client 0).sessionSlot = some 0)
    (hfilter : (s.subscriptions 0).any (topicMatches · topic) = true) : Subscribed s 0 topic :=
  ⟨hinUse, hconnected, hvalid, by rw [hsock]; decide, 0, hslot, hfilter⟩

theorem last_value_panel :
    let s := deliveryAt panelAgrees
    s.retained 0 = some (unitTopics.topic .stateEstop, txt "CLEAR") ∧
      s.lastReceived (s.sockets.connection 0) (unitTopics.topic .stateEstop) =
        some (txt "CLEAR") := by
  have hretained : (deliveryAt panelAgrees).retained 0 =
      some (unitTopics.topic .stateEstop, txt "CLEAR") := by decide +kernel
  exact ⟨hretained, last_value (isRun_deliveryTrace _ _) (by decide +kernel) (by decide +kernel)
    ⟨by decide +kernel, by decide +kernel⟩ 0 _ 0 _
    (subscribed_panel (by decide +kernel) (by decide +kernel) (by decide +kernel)
      (by decide +kernel) (by decide +kernel) (by decide +kernel)) hretained⟩

/-- Two publishers: the sends go out the other way round. -/
def panelOvertaken : List DeliveryAct :=
  panelSubscribes ++ [panelPublish, panelClears, .send 1 true, .send 0 true]

/-- The panel shows the E-stop latched, the store holds it cleared. -/
theorem older_value_shown :
    ¬ ∀ (nextConnectionId : UInt64) (directory : List MachineEntry) (ms : List DeliveryMove),
      IsRun deliveryStep (.start nextConnectionId directory) ms →
      (∀ v ∈ ms, v.pre.retains v.ev = true) →
      let s := final (.start nextConnectionId directory) ms
      CallsFinished s → ∀ i topic r p, Subscribed s i topic → s.retained r = some (topic, p) →
        s.lastReceived (s.sockets.connection i) topic = some p := by
  intro h
  have hlast : (deliveryAt panelOvertaken).lastReceived
      ((deliveryAt panelOvertaken).sockets.connection 0) (unitTopics.topic .stateEstop) =
        some (txt "LATCHED") := by decide +kernel
  have hclear := h 0 [panelEntry] _ (isRun_deliveryTrace panelDelivery panelOvertaken)
    (by decide +kernel) ⟨by decide +kernel, by decide +kernel⟩ 0 (unitTopics.topic .stateEstop) 0
    (txt "CLEAR")
    (subscribed_panel (by decide +kernel) (by decide +kernel) (by decide +kernel)
      (by decide +kernel) (by decide +kernel) (by decide +kernel)) (by decide +kernel)
  have hne : txt "LATCHED" ≠ txt "CLEAR" := by decide +kernel
  exact hne (Option.some.inj (hlast.symm.trans hclear))

end Argus
