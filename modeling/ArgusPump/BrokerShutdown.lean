import ArgusPump.BrokerSockets
import ArgusPump.BrokerPools

/-!
# The shutdown claim

`argus_mqtt_broker_disconnect_machine` shuts a descriptor down outside the lock.  Until it
gives its claim back, the client task and the stop wait with the close, and the record
stays out of the pool.

    the claims are the targets of disconnects under way               (ClaimInv.step)
    a descriptor belongs to one record, one task or one close         (DescriptorInv.step)
    … → a claimed descriptor stays open for its connection            (shutdown_claim)
-/

namespace Argus

open Interact

/-! ## Claims and targets -/

/-- The record a target was made of. -/
structure Claimed (c : MqttClient) (t : DisconnectTarget) : Prop where
  inUse : c.inUse = true
  connected : c.connected = true
  claimed : c.shutdownClaimed = true
  connectionId : c.connectionId = t.connectionId
  sock : c.sock = t.socketFd
  nonneg : 0 ≤ t.socketFd

structure ClaimInv (b : Broker) : Prop where
  flag : ∀ i, (b.clients i).shutdownClaimed = true → ∃ t ∈ b.targets, t.slot = i
  target : ∀ t ∈ b.targets, Claimed (b.clients t.slot) t
  once : (b.targets.map DisconnectTarget.slot).Nodup

theorem ClaimInv.slot_inj {b : Broker} (h : ClaimInv b) {t u : DisconnectTarget}
    (ht : t ∈ b.targets) (hu : u ∈ b.targets) (hslot : t.slot = u.slot) : t = u :=
  List.inj_on_of_nodup_map h.once ht hu hslot

theorem ClaimInv.start (nextConnectionId : UInt64) (directory : List MachineEntry) :
    ClaimInv (.start nextConnectionId directory) where
  flag _ h := by cases h
  target _ h := absurd h List.not_mem_nil
  once := List.nodup_nil

/-- Records that differ in what the claims do not look at. -/
structure SameClaim (c d : MqttClient) : Prop where
  inUse : d.inUse = c.inUse
  connected : c.connected = true → d.connected = true
  shutdownClaimed : d.shutdownClaimed = c.shutdownClaimed
  connectionId : d.connectionId = c.connectionId
  sock : d.sock = c.sock

theorem SameClaim.refl (c : MqttClient) : SameClaim c c := ⟨rfl, id, rfl, rfl, rfl⟩

theorem Claimed.same {c d : MqttClient} {t : DisconnectTarget} (h : Claimed c t)
    (hsame : SameClaim c d) : Claimed d t where
  inUse := hsame.inUse.trans h.inUse
  connected := hsame.connected h.connected
  claimed := hsame.shutdownClaimed.trans h.claimed
  connectionId := hsame.connectionId.trans h.connectionId
  sock := hsame.sock.trans h.sock
  nonneg := h.nonneg

theorem ClaimInv.same {b b' : Broker} (h : ClaimInv b)
    (hclients : ∀ i, SameClaim (b.clients i) (b'.clients i)) (htargets : b'.targets = b.targets) :
    ClaimInv b' := by
  refine ⟨fun i hi => ?_, fun t ht => ?_, ?_⟩
  · rw [htargets]
    exact h.flag i ((hclients i).shutdownClaimed.symm.trans hi)
  · rw [htargets] at ht
    exact (h.target t ht).same (hclients t.slot)
  · rw [htargets]
    exact h.once

/-- A record that is not claimed changes hands. -/
theorem ClaimInv.setRecord {b b' : Broker} (h : ClaimInv b) {i : Fin mqttMaxConnections}
    {c : MqttClient} (hclients : b'.clients = Function.update b.clients i c)
    (htargets : b'.targets = b.targets) (hbefore : (b.clients i).shutdownClaimed = false)
    (hafter : c.shutdownClaimed = false) : ClaimInv b' := by
  have hset : ∀ j, b'.clients j = if j = i then c else b.clients j := by
    intro j
    rw [hclients]
    exact Function.update_apply _ _ _ _
  refine ⟨fun j hj => ?_, fun t ht => ?_, ?_⟩
  · rw [hset] at hj
    rw [htargets]
    split_ifs at hj
    · rw [hafter] at hj
      cases hj
    · exact h.flag j hj
  · rw [htargets] at ht
    have hne : t.slot ≠ i := by
      intro heq
      have hclaimed := (h.target t ht).claimed
      rw [heq, hbefore] at hclaimed
      cases hclaimed
    rw [hset, if_neg hne]
    exact h.target t ht
  · rw [htargets]
    exact h.once

/-- Nobody has claimed a record that is free. -/
theorem ClaimInv.unclaimed {b : Broker} (h : ClaimInv b) {i : Fin mqttMaxConnections}
    (hi : (b.clients i).inUse = false ∨ (b.clients i).connected = false) :
    (b.clients i).shutdownClaimed = false := by
  by_contra hne
  obtain ⟨t, ht, rfl⟩ := h.flag i (Bool.eq_true_of_not_eq_false hne)
  rcases hi with hi | hi
  · cases hi.symm.trans (h.target t ht).inUse
  · cases hi.symm.trans (h.target t ht).connected

/-- The targets one disconnect claims. -/
def newTargets (b : Broker) (identifier : Bytes) : List DisconnectTarget :=
  (List.finRange mqttMaxConnections).filterMap fun i =>
    if (b.clients i).disconnectMatches identifier ∧ ¬ (b.clients i).shutdownClaimed then
      some ⟨i, (b.clients i).connectionId, (b.clients i).sock⟩
    else none

theorem mem_newTargets {b : Broker} {identifier : Bytes} {t : DisconnectTarget} :
    t ∈ newTargets b identifier ↔ (b.clients t.slot).disconnectMatches identifier = true ∧
      (b.clients t.slot).shutdownClaimed = false ∧
      t = ⟨t.slot, (b.clients t.slot).connectionId, (b.clients t.slot).sock⟩ := by
  unfold newTargets
  rw [List.mem_filterMap]
  constructor
  · rintro ⟨i, -, hi⟩
    split at hi
    · next hmatch =>
      cases hi
      exact ⟨hmatch.1, Bool.eq_false_iff.mpr hmatch.2, rfl⟩
    · cases hi
  · rintro ⟨hmatch, hfree, heq⟩
    refine ⟨t.slot, List.mem_finRange _, ?_⟩
    rw [if_pos ⟨hmatch, Bool.eq_false_iff.mp hfree⟩]
    exact congrArg some heq.symm

theorem newTargets_slots (b : Broker) (identifier : Bytes) :
    ((newTargets b identifier).map DisconnectTarget.slot).Nodup := by
  have hslots : (newTargets b identifier).map DisconnectTarget.slot =
      (List.finRange mqttMaxConnections).filter fun i =>
        (b.clients i).disconnectMatches identifier ∧ ¬ (b.clients i).shutdownClaimed := by
    unfold newTargets
    rw [List.map_filterMap, ← List.filterMap_eq_filter]
    refine congrArg (fun f => List.filterMap f _) (funext fun i => ?_)
    by_cases hi : (b.clients i).disconnectMatches identifier = true ∧
        ¬ (b.clients i).shutdownClaimed = true
    · simp [hi, Option.guard]
    · rw [if_neg hi]
      simpa [Option.guard] using hi
  rw [hslots]
  exact (List.nodup_finRange _).filter _

theorem disconnectMatches_spec {c : MqttClient} {identifier : Bytes}
    (h : c.disconnectMatches identifier = true) :
    c.inUse = true ∧ c.connected = true ∧ 0 ≤ c.sock := by
  unfold MqttClient.disconnectMatches at h
  simp only [Bool.and_eq_true, decide_eq_true_eq] at h
  exact ⟨h.1.1.1, h.1.1.2, h.1.2⟩

theorem ClaimInv.claim {b : Broker} (h : ClaimInv b) (identifier : Bytes) :
    ClaimInv (b.claimDisconnect identifier) := by
  have hset : ∀ i, (b.claimDisconnect identifier).clients i =
      if (b.clients i).disconnectMatches identifier then
        { b.clients i with securityInvalidated := true, shutdownClaimed := true }
      else b.clients i := fun _ => rfl
  have htargets : (b.claimDisconnect identifier).targets = b.targets ++ newTargets b identifier := rfl
  refine ⟨fun i hi => ?_, fun t ht => ?_, ?_⟩
  · rw [htargets]
    by_cases hold : (b.clients i).shutdownClaimed = true
    · obtain ⟨t, ht, hslot⟩ := h.flag i hold
      exact ⟨t, List.mem_append_left _ ht, hslot⟩
    · rw [hset] at hi
      split_ifs at hi with hmatch
      · refine ⟨⟨i, (b.clients i).connectionId, (b.clients i).sock⟩, ?_, rfl⟩
        exact List.mem_append_right _ (mem_newTargets.mpr ⟨hmatch, Bool.eq_false_iff.mpr hold, rfl⟩)
      · exact absurd hi hold
  · rw [htargets] at ht
    rw [hset]
    rcases List.mem_append.mp ht with ht | ht
    · split
      · exact ⟨(h.target t ht).inUse, (h.target t ht).connected, rfl, (h.target t ht).connectionId,
          (h.target t ht).sock, (h.target t ht).nonneg⟩
      · exact h.target t ht
    · obtain ⟨hmatch, -, heq⟩ := mem_newTargets.mp ht
      obtain ⟨hinUse, hconnected, hsock⟩ := disconnectMatches_spec hmatch
      rw [if_pos hmatch, heq]
      exact ⟨hinUse, hconnected, rfl, rfl, rfl, hsock⟩
  · rw [htargets, List.map_append, List.nodup_append]
    refine ⟨h.once, newTargets_slots b identifier, ?_⟩
    rintro _ ht _ hu rfl
    obtain ⟨t, ht, htslot⟩ := List.mem_map.mp ht
    obtain ⟨u, hu, huslot⟩ := List.mem_map.mp hu
    have hclaimed := (h.target t ht).claimed
    rw [htslot, ← huslot, (mem_newTargets.mp hu).2.1] at hclaimed
    cases hclaimed

/-- The release finds its own claim. -/
theorem ClaimInv.release_clients {b : Broker} (h : ClaimInv b) {t : DisconnectTarget}
    (ht : t ∈ b.targets) : (b.releaseDisconnectClaim t).clients =
      Function.update b.clients t.slot { b.clients t.slot with shutdownClaimed := false } :=
  have hclaimed := h.target t ht
  if_pos ⟨hclaimed.claimed, hclaimed.inUse, hclaimed.connectionId, hclaimed.sock⟩

theorem ClaimInv.release {b : Broker} (h : ClaimInv b) {t : DisconnectTarget} (ht : t ∈ b.targets) :
    ClaimInv (b.releaseDisconnectClaim t) := by
  have hset : ∀ i, (b.releaseDisconnectClaim t).clients i =
      if i = t.slot then { b.clients t.slot with shutdownClaimed := false } else b.clients i := by
    intro i
    rw [h.release_clients ht]
    exact Function.update_apply _ _ _ _
  have htargets : (b.releaseDisconnectClaim t).targets = b.targets.erase t := rfl
  have hnodup : b.targets.Nodup := h.once.of_map _
  refine ⟨fun i hi => ?_, fun u hu => ?_, ?_⟩
  · rw [hset] at hi
    split_ifs at hi with hslot
    obtain ⟨u, hu, rfl⟩ := h.flag i hi
    refine ⟨u, ?_, rfl⟩
    rw [htargets, hnodup.mem_erase_iff]
    exact ⟨fun heq => hslot (congrArg _ heq), hu⟩
  · rw [htargets, hnodup.mem_erase_iff] at hu
    rw [hset, if_neg fun hslot => hu.1 (h.slot_inj hu.2 ht hslot)]
    exact h.target u hu.2
  · exact h.once.sublist (List.erase_sublist.map _)

theorem ClaimInv.step {b b' : Broker} {act : BrokerAct} (h : ClaimInv b) (hpool : PoolInv b)
    (hs : brokerStep b act b') : ClaimInv b' := by
  cases brokerStep_move hs with
  | refuse => exact h
  | alloc sock peerKey receivingInterface sourceProven i _ _ hfree =>
    exact h.setRecord rfl rfl (h.unclaimed (.inl (Slots.firstFree_spec hfree))) rfl
  | goto => exact h.same (fun _ => .refl _) rfl
  | capture => exact h.same (fun _ => .refl _) rfl
  | lookup => exact h.same (fun _ => .refl _) rfl
  | bound i verified request cid g found principal k =>
    refine h.same (fun j => ?_) rfl
    unfold Broker.connectClient
    dsimp only
    rw [Function.update_apply]
    split
    · next hji =>
      subst hji
      exact ⟨rfl, fun _ => rfl, rfl, rfl, rfl⟩
    · exact .refl _
  | abandon i htask =>
    have hfree := h.unclaimed (.inr (hpool.created i htask))
    exact h.setRecord rfl rfl hfree hfree
  | close i => exact h.setRecord rfl rfl (close_next hs).2.1 rfl
  | commit => exact h.same (fun _ => .refl _) rfl
  | fence identifier =>
    unfold Broker.fenceMachineAuthentication
    dsimp only
    split
    · refine h.same (fun i => ?_) rfl
      dsimp only
      split
      · exact ⟨rfl, id, rfl, rfl, rfl⟩
      · exact .refl _
    · exact h
  | claim identifier => exact h.claim identifier
  | release t => exact h.release (release_next hs).1

/-! ## Descriptors and their owners -/

namespace Sockets

/-- No record has the descriptor. -/
def Unheld (s : Sockets) (sock : Int) : Prop :=
  ∀ i, (s.broker.clients i).inUse = true → 0 ≤ (s.broker.clients i).sock →
    (s.broker.clients i).sock ≠ sock

/-- No accept comes any more. -/
def Quiet (s : Sockets) : Prop := s.stopping = true ∧ (s.server = .top ∨ s.server = .exited)

/-- What the server task knows of its socket. -/
def PhaseHolds (s : Sockets) : ServerPhase → Prop
  | .accepted sock | .admitting sock =>
    s.owner sock = some s.accepts ∧ sock ∉ s.closing ∧ s.Unheld sock
  | .creating i sock =>
    s.broker.task i = .created ∧ (sock ∉ s.closing ∨ s.stopping = true) ∧
      ∀ j ≠ i, (s.broker.clients j).inUse = true → 0 ≤ (s.broker.clients j).sock →
        (s.broker.clients j).sock ≠ sock
  | .closing sock => (sock ∉ s.closing ∨ s.stopping = true) ∧ s.Unheld sock
  | .top | .waiting | .exited => True

end Sockets

/-- The server task has a socket, or waits for one. -/
theorem Sockets.not_quiet {s : Sockets} {phase : ServerPhase} (h : s.server = phase)
    (htop : phase ≠ .top) (hexited : phase ≠ .exited) : ¬ s.Quiet := by
  intro hquiet
  rcases hquiet.2 with hp | hp
  · exact htop (h.symm.trans hp)
  · exact hexited (h.symm.trans hp)

structure DescriptorInv (s : Sockets) : Prop where
  used : ∀ i, s.broker.task i ≠ .none → (s.broker.clients i).inUse = true
  held : ∀ i, (s.broker.clients i).inUse = true → 0 ≤ (s.broker.clients i).sock →
    s.owner (s.broker.clients i).sock = some (s.connection i)
  apart : ∀ i j, (s.broker.clients i).inUse = true → (s.broker.clients j).inUse = true →
    0 ≤ (s.broker.clients i).sock → (s.broker.clients i).sock = (s.broker.clients j).sock → i = j
  /-- The server task may close a socket the stop has taken too, on its way out. -/
  closing : ∀ sock ∈ s.closing, s.owner sock ≠ none ∨ s.Quiet
  unheld : ∀ sock ∈ s.closing, s.Unheld sock
  once : s.closing.Nodup
  server : s.PhaseHolds s.server

theorem DescriptorInv.start (nextConnectionId : UInt64) (directory : List MachineEntry) :
    DescriptorInv (.start nextConnectionId directory) where
  used _ h := absurd rfl h
  held _ h := by cases h
  apart _ _ h := by cases h
  closing _ h := absurd h List.not_mem_nil
  unheld _ h := absurd h List.not_mem_nil
  once := List.nodup_nil
  server := trivial

/-- The records hold no more descriptors than before. -/
def Fewer (b b' : Broker) : Prop :=
  ∀ i, (b'.clients i).inUse = true → 0 ≤ (b'.clients i).sock →
    (b.clients i).inUse = true ∧ (b'.clients i).sock = (b.clients i).sock

theorem Fewer.unheld {s s' : Sockets} (h : Fewer s.broker s'.broker) {sock : Int}
    (hs : s.Unheld sock) : s'.Unheld sock := by
  intro i hi hsock
  obtain ⟨hold, heq⟩ := h i hi hsock
  rw [heq] at hsock ⊢
  exact hs i hold hsock

/-- Descriptors go from records to the tasks that close them. -/
theorem DescriptorInv.take {s s' : Sockets} (h : DescriptorInv s) (l : List Int)
    (howner : s'.owner = s.owner) (hconnection : s'.connection = s.connection)
    (hclosing : s'.closing = s.closing ++ l) (hnodup : l.Nodup)
    (htaken : ∀ sock ∈ l, (¬ s.Unheld sock) ∧ s'.Unheld sock)
    (hquiet : s.Quiet → s'.Quiet) (hfewer : Fewer s.broker s'.broker)
    (hused : ∀ i, s'.broker.task i ≠ .none → (s'.broker.clients i).inUse = true)
    (hserver : s'.PhaseHolds s'.server) : DescriptorInv s' := by
  have hopen : ∀ sock, ¬ s.Unheld sock → s.owner sock ≠ none := by
    intro sock hsock
    unfold Sockets.Unheld at hsock
    push Not at hsock
    obtain ⟨i, hi, hnonneg, rfl⟩ := hsock
    rw [h.held i hi hnonneg]
    nofun
  refine ⟨hused, fun i hi hsock => ?_, fun i j hi hj hsock heq => ?_, fun sock hsock => ?_,
    fun sock hsock => ?_, ?_, hserver⟩
  · obtain ⟨hold, heq⟩ := hfewer i hi hsock
    rw [heq] at hsock
    rw [howner, hconnection, heq]
    exact h.held i hold hsock
  · obtain ⟨hiold, hieq⟩ := hfewer i hi hsock
    obtain ⟨hjold, hjeq⟩ := hfewer j hj (heq ▸ hsock)
    rw [hieq] at hsock heq
    exact h.apart i j hiold hjold hsock (heq.trans hjeq)
  · rw [hclosing] at hsock
    rw [howner]
    rcases List.mem_append.mp hsock with hsock | hsock
    · exact (h.closing sock hsock).imp_right hquiet
    · exact .inl (hopen sock (htaken sock hsock).1)
  · rw [hclosing] at hsock
    rcases List.mem_append.mp hsock with hsock | hsock
    · exact hfewer.unheld (h.unheld sock hsock)
    · exact (htaken sock hsock).2
  · rw [hclosing, List.nodup_append]
    refine ⟨h.once, hnodup, ?_⟩
    rintro sock hold _ hnew rfl
    exact (htaken sock hnew).1 (h.unheld sock hold)

theorem DescriptorInv.fewer {s s' : Sockets} (h : DescriptorInv s) (howner : s'.owner = s.owner)
    (hconnection : s'.connection = s.connection) (hclosing : s'.closing = s.closing)
    (hquiet : s.Quiet → s'.Quiet) (hfewer : Fewer s.broker s'.broker)
    (hused : ∀ i, s'.broker.task i ≠ .none → (s'.broker.clients i).inUse = true)
    (hserver : s'.PhaseHolds s'.server) : DescriptorInv s' :=
  h.take [] howner hconnection (by rw [hclosing, List.append_nil]) List.nodup_nil
    (fun _ hsock => absurd hsock List.not_mem_nil) hquiet hfewer hused hserver

/-- The step ends the task of a record. -/
def BrokerAct.ends : BrokerAct → Bool
  | .close _ | .taskFailed _ => true
  | _ => false

/-- What a step does to the tasks: nothing, one of them goes on (by the server task, while it
is created), or a record is handed out. -/
inductive TasksMove (b b' : Broker) : BrokerAct → Prop
  | same (act : BrokerAct) (hends : act.ends = false) (htask : b'.task = b.task) :
      TasksMove b b' act
  | works (act : BrokerAct) (i : Fin mqttMaxConnections) (phase : ClientPhase)
      (hsome : b.task i ≠ .none)
      (hcreated : b.task i = .created → act = .taskCreated i ∨ act = .taskFailed i)
      (hends : phase = .none ↔ act.ends = true)
      (htask : b'.task = Function.update b.task i phase) : TasksMove b b' act
  | handed (sock : Int) (peerKey : UInt32) (receivingInterface : UInt8) (sourceProven : Bool)
      (i : Fin mqttMaxConnections) (hinUse : (b'.clients i).inUse = true)
      (htask : b'.task = Function.update b.task i .created) :
      TasksMove b b' (.accept sock peerKey receivingInterface sourceProven)

/-- A task that has been created goes on. -/
theorem TasksMove.goes {b b' : Broker} {act : BrokerAct} {i : Fin mqttMaxConnections}
    {old phase : ClientPhase} (hold : b.task i = old)
    (htask : b'.task = Function.update b.task i phase) (hnone : old ≠ .none)
    (hcreated : old ≠ .created) (hphase : phase ≠ .none) (hends : act.ends = false) :
    TasksMove b b' act := by
  subst hold
  refine .works act i phase hnone (fun hc => absurd hc hcreated) ?_ htask
  rw [hends]
  exact ⟨fun hp => absurd hp hphase, nofun⟩

theorem brokerStep_tasks {b b' : Broker} {act : BrokerAct} (h : brokerStep b act b') :
    TasksMove b b' act := by
  cases act with
  | accept sock peerKey receivingInterface sourceProven =>
    rcases accept_next h with ⟨-, rfl⟩ | ⟨i, -, -, -, -, rfl⟩
    · exact .same _ rfl rfl
    · refine .handed _ _ _ _ i ?_ rfl
      show (Function.update b.clients i _ i).inUse = true
      rw [Function.update_self]
  | taskCreated i =>
    obtain ⟨htask, rfl⟩ := taskCreated_next h
    refine .works _ i .serving ?_ (fun _ => .inl rfl) ⟨nofun, nofun⟩ rfl
    rw [htask]
    nofun
  | taskFailed i =>
    obtain ⟨htask, rfl⟩ := taskFailed_next h
    refine .works _ i .none ?_ (fun _ => .inr rfl) ⟨fun _ => rfl, fun _ => rfl⟩ rfl
    rw [htask]
    nofun
  | connect i request =>
    obtain ⟨htask, rfl | rfl⟩ := connect_next h
    · exact .goes htask rfl nofun nofun nofun rfl
    · exact .goes htask rfl nofun nofun nofun rfl
  | find i throttleAdmits =>
    obtain ⟨_, _, _, htask, ⟨-, rfl⟩ | rfl⟩ := find_next h
    · exact .goes htask rfl nofun nofun nofun rfl
    · exact .goes htask rfl nofun nofun nofun rfl
  | bind i verified =>
    obtain ⟨_, _, _, _, htask, rfl | ⟨_, _, -, -, -, rfl⟩⟩ := bind_next h
    · exact .goes htask rfl nofun nofun nofun rfl
    · exact .goes htask rfl nofun nofun nofun rfl
  | connack i sent =>
    obtain ⟨_, htask, rfl | rfl⟩ := connack_next h
    · exact .goes htask rfl nofun nofun nofun rfl
    · exact .goes htask rfl nofun nofun nofun rfl
  | leave i =>
    obtain ⟨htask, rfl⟩ := leave_next h
    exact .goes htask rfl nofun nofun nofun rfl
  | close i =>
    obtain ⟨htask, -, rfl⟩ := close_next h
    refine .works _ i .none ?_ ?_ ⟨fun _ => rfl, fun _ => rfl⟩ rfl
    · rw [htask]
      nofun
    · rw [htask]
      nofun
  | commit directory =>
    cases h
    exact .same _ rfl rfl
  | fence identifier =>
    cases h
    refine .same _ rfl ?_
    unfold Broker.fenceMachineAuthentication
    dsimp only
    split <;> rfl
  | claim identifier =>
    cases h
    exact .same _ rfl rfl
  | release t =>
    obtain ⟨-, rfl⟩ := release_next h
    exact .same _ rfl rfl

/-- What a step does to the task of a record. -/
theorem brokerStep_task {b b' : Broker} {act : BrokerAct} (h : brokerStep b act b')
    (i : Fin mqttMaxConnections) :
    b'.task i = b.task i ∨
      (b.task i ≠ .none ∧ (b.task i = .created → act = .taskCreated i ∨ act = .taskFailed i)) ∨
      (b'.task i = .created ∧ (b'.clients i).inUse = true) := by
  cases brokerStep_tasks h with
  | same _ _ htask => exact .inl (congrFun htask i)
  | works _ j phase hsome hcreated _ htask =>
    by_cases hij : i = j
    · subst hij
      exact .inr (.inl ⟨hsome, hcreated⟩)
    · rw [htask]
      exact .inl (Function.update_of_ne hij _ _)
  | handed _ _ _ _ j hinUse htask =>
    rw [htask]
    by_cases hij : i = j
    · subst hij
      exact .inr (.inr ⟨Function.update_self _ _ _, hinUse⟩)
    · exact .inl (Function.update_of_ne hij _ _)

/-- What a step does to the record of a task: it is given back with its task. -/
structure RecordMove (b b' : Broker) (i : Fin mqttMaxConnections) : Prop where
  kept : (b.clients i).inUse = true → b'.task i ≠ .none → (b'.clients i).inUse = true
  fewer : (b'.clients i).inUse = true → 0 ≤ (b'.clients i).sock →
    (b.clients i).inUse = true ∧ (b'.clients i).sock = (b.clients i).sock

theorem RecordMove.same {b b' : Broker} {i : Fin mqttMaxConnections}
    (hinUse : (b'.clients i).inUse = (b.clients i).inUse)
    (hsock : (b'.clients i).sock = (b.clients i).sock) : RecordMove b b' i where
  kept hi _ := hinUse.trans hi
  fewer hi _ := ⟨hinUse.symm.trans hi, hsock⟩

theorem RecordMove.free {b b' : Broker} {i : Fin mqttMaxConnections} {c : MqttClient}
    (hclients : b'.clients = Function.update b.clients i c)
    (htask : b'.task = Function.update b.task i .none) (hc : c.inUse = false)
    (j : Fin mqttMaxConnections) : RecordMove b b' j := by
  by_cases hji : j = i
  · subst hji
    refine ⟨fun _ hnone => absurd ?_ hnone, fun hj => ?_⟩
    · rw [htask, Function.update_self]
    · rw [hclients, Function.update_self, hc] at hj
      cases hj
  · refine .same ?_ ?_ <;> rw [hclients, Function.update_of_ne hji]

/-- Only an accept hands a descriptor to a record. -/
theorem brokerStep_record {b b' : Broker} {act : BrokerAct} (h : brokerStep b act b')
    (hact : ∀ sock peerKey receivingInterface sourceProven,
      act ≠ .accept sock peerKey receivingInterface sourceProven) (j : Fin mqttMaxConnections) :
    RecordMove b b' j := by
  cases brokerStep_move h with
  | refuse => exact .same rfl rfl
  | alloc => exact absurd rfl (hact _ _ _ _)
  | goto => exact .same rfl rfl
  | capture => exact .same rfl rfl
  | lookup => exact .same rfl rfl
  | bound i verified request cid g found principal k =>
    by_cases hji : j = i
    · subst hji
      refine .same ?_ ?_ <;> (unfold Broker.connectClient; dsimp only; rw [Function.update_self])
    · refine .same ?_ ?_ <;>
        (unfold Broker.connectClient; dsimp only; rw [Function.update_of_ne hji])
  | abandon i => exact .free rfl rfl rfl j
  | close i => exact .free rfl rfl rfl j
  | commit => exact .same rfl rfl
  | fence identifier =>
    unfold Broker.fenceMachineAuthentication
    dsimp only
    split
    · refine .same ?_ ?_ <;> (dsimp only; split <;> rfl)
    · exact .same rfl rfl
  | claim identifier =>
    unfold Broker.claimDisconnect
    refine .same ?_ ?_ <;> (dsimp only; split <;> rfl)
  | release t =>
    unfold Broker.releaseDisconnectClaim
    dsimp only
    split
    · by_cases hslot : j = t.slot
      · subst hslot
        refine .same ?_ ?_ <;> (dsimp only; rw [Function.update_self])
      · refine .same ?_ ?_ <;> (dsimp only; rw [Function.update_of_ne hslot])
    · exact .same rfl rfl

/-- A task has a record in use. -/
theorem used_step {b b' : Broker} {act : BrokerAct} (hs : brokerStep b act b')
    (hused : ∀ i, b.task i ≠ .none → (b.clients i).inUse = true) (i : Fin mqttMaxConnections)
    (hi : b'.task i ≠ .none) : (b'.clients i).inUse = true := by
  have hkept : (b.clients i).inUse = true → (b'.clients i).inUse = true := by
    intro hinUse
    cases act with
    | accept sock peerKey receivingInterface sourceProven =>
      rcases accept_next hs with ⟨-, rfl⟩ | ⟨j, -, -, -, -, rfl⟩
      · exact hinUse
      · show (Function.update b.clients j _ i).inUse = true
        rw [Function.update_apply]
        split
        · rfl
        · exact hinUse
    | _ => exact (brokerStep_record hs nofun i).kept hinUse hi
  rcases brokerStep_task hs i with hsame | ⟨hne, -⟩ | ⟨-, hinUse⟩
  · exact hkept (hused i (hsame ▸ hi))
  · exact hkept (hused i hne)
  · exact hinUse

theorem Fewer.refl (b : Broker) : Fewer b b := fun _ hi _ => ⟨hi, rfl⟩

/-- The server task reads the state. -/
theorem DescriptorInv.check {s s' : Sockets} (h : DescriptorInv s)
    (hs : socketStep s .check s') : DescriptorInv s' := by
  unfold socketStep Sockets.next at hs
  have hserver := h.server
  dsimp only at hs
  split at hs
  · cases hs
    refine h.fewer rfl rfl rfl (fun hquiet => ⟨hquiet.1, .inr (if_pos hquiet.1)⟩) (.refl _) h.used ?_
    dsimp only
    split <;> trivial
  · next sock haccepted =>
    cases hs
    rw [haccepted] at hserver
    refine h.fewer rfl rfl rfl (fun hquiet => ?_) (.refl _) h.used ?_
    · exact absurd hquiet (s.not_quiet haccepted nofun nofun)
    · dsimp only
      split
      · exact ⟨.inl hserver.2.1, hserver.2.2⟩
      · exact hserver
  · cases hs

/-- `accept` returns a descriptor that is not open. -/
theorem DescriptorInv.accept {s s' : Sockets} {sock : Int} (h : DescriptorInv s)
    (hs : socketStep s (.accept sock) s') : DescriptorInv s' := by
  unfold socketStep Sockets.next at hs
  dsimp only at hs
  split at hs
  · cases hs
  · next hwaiting =>
    have hwaiting := not_not.mp hwaiting
    have hnotquiet : ¬ s.Quiet := s.not_quiet hwaiting nofun nofun
    split at hs
    · cases hs
      exact h.fewer rfl rfl rfl (fun hquiet => absurd hquiet hnotquiet) (.refl _) h.used trivial
    · split at hs
      · cases hs
      · next hfree =>
        cases hs
        have hfree := not_not.mp hfree
        have hother : ∀ fd, s.owner fd ≠ none →
            Function.update s.owner sock (some (s.accepts + 1)) fd = s.owner fd :=
          fun fd hfd => Function.update_of_ne (fun heq : fd = sock => hfd (heq ▸ hfree)) _ _
        have hopen : ∀ fd ∈ s.closing, s.owner fd ≠ none :=
          fun fd hfd => (h.closing fd hfd).resolve_right hnotquiet
        have hheld : ∀ i, (s.broker.clients i).inUse = true → 0 ≤ (s.broker.clients i).sock →
            s.owner (s.broker.clients i).sock ≠ none := by
          intro i hi hsock
          rw [h.held i hi hsock]
          nofun
        refine ⟨h.used, fun i hi hsock => ?_, h.apart, fun fd hfd => .inl ?_, h.unheld, h.once, ?_⟩
        · exact (hother _ (hheld i hi hsock)).trans (h.held i hi hsock)
        · show Function.update s.owner sock _ fd ≠ none
          rw [hother fd (hopen fd hfd)]
          exact hopen fd hfd
        · refine ⟨Function.update_self _ _ _, fun hmem => hopen sock hmem hfree, fun i hi hsock heq => ?_⟩
          exact hheld i hi hsock (heq ▸ hfree)

/-- The server task closes the socket it could not hand out. -/
theorem DescriptorInv.serverClose {s s' : Sockets} (h : DescriptorInv s)
    (hs : socketStep s .serverClose s') : DescriptorInv s' := by
  unfold socketStep Sockets.next at hs
  have hserver := h.server
  dsimp only at hs
  split at hs
  · next sock hphase =>
    cases hs
    rw [hphase] at hserver
    obtain ⟨hstop, hunheld⟩ := hserver
    have hnotquiet : ¬ s.Quiet := s.not_quiet hphase nofun nofun
    refine ⟨h.used, fun i hi hsock => ?_, h.apart, fun fd hfd => ?_, h.unheld, h.once, trivial⟩
    · exact (Function.update_of_ne (hunheld i hi hsock) _ _).trans (h.held i hi hsock)
    · by_cases heq : fd = sock
      · -- the stop has taken it too: no accept comes any more
        subst heq
        exact .inr ⟨hstop.resolve_left (not_not.mpr hfd), .inl rfl⟩
      · refine .inl ?_
        show Function.update s.owner sock none fd ≠ none
        rw [Function.update_of_ne heq]
        exact (h.closing fd hfd).resolve_right hnotquiet
  · cases hs

/-- A client task or the stop closes a socket. -/
theorem DescriptorInv.close {s s' : Sockets} {sock : Int} (h : DescriptorInv s)
    (hs : socketStep s (.close sock) s') : DescriptorInv s' := by
  unfold socketStep Sockets.next at hs
  dsimp only at hs
  split at hs
  · next hmem =>
    cases hs
    have herase : ∀ fd ∈ s.closing.erase sock, fd ≠ sock ∧ fd ∈ s.closing :=
      fun fd hfd => (h.once.mem_erase_iff).mp hfd
    refine ⟨h.used, fun i hi hsock => ?_, h.apart, fun fd hfd => ?_, fun fd hfd => ?_,
      h.once.sublist List.erase_sublist, ?_⟩
    · exact (Function.update_of_ne (h.unheld sock hmem i hi hsock) _ _).trans (h.held i hi hsock)
    · obtain ⟨hne, hfd⟩ := herase fd hfd
      refine (h.closing fd hfd).imp_left fun hopen => ?_
      show Function.update s.owner sock none fd ≠ none
      rw [Function.update_of_ne hne]
      exact hopen
    · exact h.unheld fd (herase fd hfd).2
    · have hserver := h.server
      have hnot : ∀ fd, fd ∉ s.closing → fd ∉ s.closing.erase sock :=
        fun fd hfd hin => hfd (herase fd hin).2
      have hkept : ∀ fd, fd ∉ s.closing → Function.update s.owner sock none fd = s.owner fd :=
        fun fd hfd => Function.update_of_ne (fun heq : fd = sock => hfd (heq ▸ hmem)) _ _
      cases hphase : s.server with
      | accepted fd =>
        rw [hphase] at hserver
        exact ⟨(hkept fd hserver.2.1).trans hserver.1, hnot fd hserver.2.1, hserver.2.2⟩
      | admitting fd =>
        rw [hphase] at hserver
        exact ⟨(hkept fd hserver.2.1).trans hserver.1, hnot fd hserver.2.1, hserver.2.2⟩
      | creating i fd =>
        rw [hphase] at hserver
        exact ⟨hserver.1, hserver.2.1.imp_left (hnot fd), hserver.2.2⟩
      | closing fd =>
        rw [hphase] at hserver
        exact ⟨hserver.1.imp_left (hnot fd), hserver.2⟩
      | _ => trivial
  · cases hs

/-! ### The records -/

/-- A record is handed out for the socket the server task has. -/
theorem DescriptorInv.alloc {s : Sockets} {i : Fin mqttMaxConnections} {sock : Int}
    {peerKey : UInt32} {receivingInterface : UInt8} {sourceProven : Bool} (h : DescriptorInv s)
    (hphase : s.server = .admitting sock) (hfree : s.broker.freeRecord = some i)
    (hused : ∀ j, (s.broker.takeRecord i sock peerKey receivingInterface sourceProven).task j ≠
      .none → ((s.broker.takeRecord i sock peerKey receivingInterface sourceProven).clients
        j).inUse = true) :
    DescriptorInv { s with
      broker := s.broker.takeRecord i sock peerKey receivingInterface sourceProven
      server := .creating i sock
      connection := Function.update s.connection i s.accepts } := by
  have hserver := h.server
  rw [hphase] at hserver
  obtain ⟨howner, hnotclosing, hunheld⟩ := hserver
  have hunused : (s.broker.clients i).inUse = false := Slots.firstFree_spec hfree
  have hself : ((s.broker.takeRecord i sock peerKey receivingInterface sourceProven).clients
      i).sock = sock := by
    unfold Broker.takeRecord
    dsimp only
    rw [Function.update_self]
  have hother : ∀ j, j ≠ i →
      (s.broker.takeRecord i sock peerKey receivingInterface sourceProven).clients j =
        s.broker.clients j := fun j hj => Function.update_of_ne hj _ _
  refine ⟨hused, fun j hj hsock => ?_, fun j l hj hl hsock heq => ?_, fun fd hfd => .inl ?_,
    fun fd hfd j hj hsock => ?_, h.once, ?_⟩
  · by_cases hji : j = i
    · subst hji
      show s.owner (((s.broker.takeRecord j sock peerKey receivingInterface sourceProven).clients
        j).sock) = some (Function.update s.connection j s.accepts j)
      rw [hself, Function.update_self]
      exact howner
    · dsimp only at hj hsock ⊢
      rw [hother j hji] at hj hsock ⊢
      rw [Function.update_of_ne hji]
      exact h.held j hj hsock
  · dsimp only at hj hl hsock heq
    by_cases hji : j = i
    · by_cases hli : l = i
      · rw [hji, hli]
      · subst hji
        rw [hself] at heq hsock
        rw [hother l hli] at hl heq
        exact absurd heq.symm (hunheld l hl (heq ▸ hsock))
    · rw [hother j hji] at hj hsock heq
      by_cases hli : l = i
      · subst hli
        rw [hself] at heq
        exact absurd heq (hunheld j hj hsock)
      · rw [hother l hli] at hl heq
        exact h.apart j l hj hl hsock heq
  · exact (h.closing fd hfd).resolve_right (s.not_quiet hphase nofun nofun)
  · dsimp only at hj hsock ⊢
    by_cases hji : j = i
    · subst hji
      rw [hself]
      exact fun heq => hnotclosing (heq ▸ hfd)
    · rw [hother j hji] at hj hsock ⊢
      exact h.unheld fd hfd j hj hsock
  · refine ⟨Function.update_self _ _ _, .inl hnotclosing, fun j hji hj hsock => ?_⟩
    dsimp only at hj hsock ⊢
    rw [hother j hji] at hj hsock ⊢
    exact hunheld j hj hsock

/-- The server task keeps its socket over a step of the other tasks. -/
theorem DescriptorInv.phase {s : Sockets} {b : Broker} {act : BrokerAct} {closing : List Int}
    (h : DescriptorInv s) (hs : brokerStep s.broker act b) (hfewer : Fewer s.broker b)
    (hcreated : ∀ i, act ≠ .taskCreated i) (hfailed : ∀ i, act ≠ .taskFailed i)
    (hclosing : ∀ sock, sock ∉ s.closing → sock ∈ closing → ¬ s.Unheld sock ∧
      ∀ i, s.broker.task i = .created → (s.broker.clients i).sock ≠ sock) :
    ({ s with broker := b, closing := closing } : Sockets).PhaseHolds s.server := by
  have hserver := h.server
  have hunheld : ∀ sock, s.Unheld sock →
      ({ s with broker := b, closing := closing } : Sockets).Unheld sock := by
    intro sock hsock
    have hafter : Fewer s.broker ({ s with broker := b, closing := closing } : Sockets).broker := hfewer
    exact hafter.unheld hsock
  cases hphase : s.server with
  | accepted sock =>
    rw [hphase] at hserver
    exact ⟨hserver.1, fun hmem => (hclosing sock hserver.2.1 hmem).1 hserver.2.2,
      hunheld sock hserver.2.2⟩
  | admitting sock =>
    rw [hphase] at hserver
    exact ⟨hserver.1, fun hmem => (hclosing sock hserver.2.1 hmem).1 hserver.2.2,
      hunheld sock hserver.2.2⟩
  | creating i sock =>
    rw [hphase] at hserver
    obtain ⟨htask, hstop, hothers⟩ := hserver
    refine ⟨?_, hstop.imp_left fun hnot hmem => ?_, fun j hji hj hsock => ?_⟩
    · rcases brokerStep_task hs i with hsame | ⟨-, hmoves⟩ | ⟨hagain, -⟩
      · exact hsame.trans htask
      · rcases hmoves htask with hact | hact
        · exact absurd hact (hcreated i)
        · exact absurd hact (hfailed i)
      · exact hagain
    · obtain ⟨hheld, hother⟩ := hclosing sock hnot hmem
      refine hheld fun j hj hsock heq => ?_
      by_cases hji : j = i
      · exact hother i htask (hji ▸ heq)
      · exact hothers j hji hj hsock heq
    · obtain ⟨hold, heq⟩ := hfewer j hj hsock
      dsimp only at hsock ⊢
      rw [heq] at hsock ⊢
      exact hothers j hji hold hsock
  | closing sock =>
    rw [hphase] at hserver
    refine ⟨hserver.1.imp_left fun hnot hmem => ?_, hunheld sock hserver.2⟩
    exact (hclosing sock hnot hmem).1 hserver.2
  | _ => trivial

/-- A step of another task, with the server task where it was. -/
theorem DescriptorInv.others {s : Sockets} {b : Broker} {act : BrokerAct} (h : DescriptorInv s)
    (hb : brokerStep s.broker act b)
    (haccept : ∀ sock peerKey receivingInterface sourceProven,
      act ≠ .accept sock peerKey receivingInterface sourceProven)
    (hcreated : ∀ i, act ≠ .taskCreated i) (hfailed : ∀ i, act ≠ .taskFailed i) :
    DescriptorInv { s with broker := b } := by
  have hfewer : Fewer s.broker b := fun i => (brokerStep_record hb haccept i).fewer
  exact h.fewer rfl rfl rfl id hfewer (used_step hb h.used)
    (h.phase hb hfewer hcreated hfailed fun _ hnot hmem => absurd hmem hnot)

theorem DescriptorInv.taskFailed {s : Sockets} {b : Broker} {i : Fin mqttMaxConnections} {sock : Int}
    (h : DescriptorInv s) (hb : brokerStep s.broker (.taskFailed i) b)
    (hphase : s.server = .creating i sock) :
    DescriptorInv { s with broker := b, server := .closing sock } := by
  have hfewer : Fewer s.broker b := fun j => (brokerStep_record hb nofun j).fewer
  have hserver := h.server
  rw [hphase] at hserver
  obtain ⟨-, hstop, hothers⟩ := hserver
  refine h.fewer rfl rfl rfl (fun hquiet => absurd hquiet (s.not_quiet hphase nofun nofun)) hfewer
    (used_step hb h.used) ⟨hstop, fun j hj hsock => ?_⟩
  have hji : j ≠ i := by
    rintro rfl
    obtain ⟨-, rfl⟩ := taskFailed_next hb
    -- The record of a task that could not be created is free again.
    have hfree : ((s.broker.abandonClient j).clients j).inUse = false := by
      unfold Broker.abandonClient
      dsimp only
      rw [Function.update_self]
    cases hj.symm.trans hfree
  obtain ⟨hold, heq⟩ := hfewer j hj hsock
  dsimp only at hsock ⊢
  rw [heq] at hsock ⊢
  exact hothers j hji hold hsock

/-- A client task takes its socket out of its record. -/
theorem DescriptorInv.closeClient {s : Sockets} {i : Fin mqttMaxConnections} (h : DescriptorInv s)
    (hb : brokerStep s.broker (.close i) (s.broker.closeClient i))
    (hsock : 0 ≤ (s.broker.clients i).sock) :
    DescriptorInv { s with
      broker := s.broker.closeClient i
      closing := s.closing ++ [(s.broker.clients i).sock] } := by
  have hfewer : Fewer s.broker (s.broker.closeClient i) := fun j =>
    (brokerStep_record hb nofun j).fewer
  obtain ⟨htask, -, -⟩ := close_next hb
  have hinUse := h.used i (by rw [htask]; nofun)
  have hheld : ¬ s.Unheld (s.broker.clients i).sock := fun hunheld => hunheld i hinUse hsock rfl
  have hclosed : ((s.broker.closeClient i).clients i).inUse = false := by
    unfold Broker.closeClient
    dsimp only
    rw [Function.update_self]
  refine h.take [(s.broker.clients i).sock] rfl rfl rfl (List.nodup_singleton _)
    (fun fd hfd => ?_) id hfewer (used_step hb h.used)
    (h.phase hb hfewer nofun nofun fun fd hnot hmem => ?_)
  · rw [List.mem_singleton.mp hfd]
    refine ⟨hheld, fun j hj hjsock heq => ?_⟩
    obtain ⟨hold, hsame⟩ := hfewer j hj hjsock
    dsimp only at hj hjsock heq
    rw [hsame] at hjsock heq
    obtain rfl := h.apart j i hold hinUse hjsock heq
    cases hj.symm.trans hclosed
  · rcases List.mem_append.mp hmem with hold | hnew
    · exact absurd hold hnot
    · rw [List.mem_singleton.mp hnew]
      refine ⟨hheld, fun j hj heq => ?_⟩
      obtain rfl := h.apart j i (h.used j (by rw [hj]; nofun)) hinUse (heq ▸ hsock) heq
      cases hj.symm.trans htask

theorem DescriptorInv.records {s s' : Sockets} {act : BrokerAct} (h : DescriptorInv s)
    (hs : socketStep s (.records act) s') : DescriptorInv s' := by
  obtain ⟨b, hb, hafter⟩ := Option.bind_eq_some_iff.mp hs
  replace hb : brokerStep s.broker act b := hb
  unfold Sockets.recordsAfter at hafter
  cases act with
  | accept sock peerKey receivingInterface sourceProven =>
    dsimp only at hafter
    split at hafter
    · next hphase =>
      rcases accept_next hb with ⟨hnone, rfl⟩ | ⟨i, hsome, -, -, hfree, rfl⟩
      · rw [hnone] at hafter
        cases hafter
        have hserver := h.server
        rw [hphase] at hserver
        exact h.fewer rfl rfl rfl
          (fun hquiet => absurd hquiet (s.not_quiet hphase nofun nofun)) (.refl _) h.used
          ⟨.inl hserver.2.1, hserver.2.2⟩
      · rw [hsome] at hafter
        cases hafter
        exact h.alloc hphase hfree (used_step hb h.used)
    · cases hafter
  | taskCreated i =>
    have hfewer : Fewer s.broker b := fun j => (brokerStep_record hb nofun j).fewer
    dsimp only at hafter
    split at hafter
    · next hphase =>
      split at hafter
      · cases hafter
        exact h.fewer rfl rfl rfl
          (fun hquiet => absurd hquiet (s.not_quiet hphase nofun nofun)) hfewer
          (used_step hb h.used) trivial
      · cases hafter
    · cases hafter
  | taskFailed i =>
    dsimp only at hafter
    split at hafter
    · next j sock hphase =>
      split at hafter
      · next hji =>
        subst hji
        cases hafter
        exact h.taskFailed hb hphase
      · cases hafter
    · cases hafter
  | close i =>
    obtain ⟨-, -, rfl⟩ := close_next hb
    dsimp only at hafter
    cases hafter
    split
    · next hsock => exact h.closeClient hb hsock
    · exact h.others hb nofun nofun nofun
  | _ =>
    cases hafter
    exact h.others hb nofun nofun nofun

theorem retired_iff {c : MqttClient} {sock : Int} : Sockets.retired c = some sock ↔
    c.inUse = true ∧ 0 ≤ c.sock ∧ c.sock = sock := by
  unfold Sockets.retired
  split
  · next hc => simp [hc]
  · next hc =>
    rw [not_and] at hc
    constructor
    · nofun
    · intro hsome
      exact absurd hsome.2.1 (hc hsome.1)

/-- No record keeps a socket. -/
theorem retireSockets_none {s : Sockets} {i : Fin mqttMaxConnections}
    (hi : (s.retireSockets.broker.clients i).inUse = true) :
    ¬ 0 ≤ (s.retireSockets.broker.clients i).sock := by
  intro hsock
  unfold Sockets.retireSockets at hi hsock
  dsimp only at hi hsock
  split at hi
  · next hsome =>
    rw [if_pos hsome] at hsock
    exact absurd (show (0 : Int) ≤ -1 from hsock) (by decide)
  · next hsome =>
    rw [if_neg hsome] at hsock
    rw [retired_iff.mpr ⟨hi, hsock, rfl⟩] at hsome
    exact hsome rfl

/-- What the stop takes was in a record. -/
theorem retired_held {s : Sockets} {fd : Int}
    (h : fd ∈ (List.finRange mqttMaxConnections).filterMap fun i =>
      Sockets.retired (s.broker.clients i)) : ¬ s.Unheld fd := by
  intro hunheld
  obtain ⟨i, -, hi⟩ := List.mem_filterMap.mp h
  obtain ⟨hinUse, hsock, heq⟩ := retired_iff.mp hi
  exact hunheld i hinUse hsock heq

/-- The stop takes all sockets; nobody has claimed one. -/
theorem DescriptorInv.retire {s s' : Sockets} (h : DescriptorInv s)
    (hs : socketStep s .retire s') : DescriptorInv s' := by
  unfold socketStep Sockets.next at hs
  dsimp only at hs
  split at hs
  · next hguard =>
    cases hs
    refine h.take _ rfl rfl rfl ?_ (fun fd hfd => ⟨retired_held hfd, fun i hi hsock => ?_⟩) id
      (fun i hi hsock => absurd hsock (retireSockets_none hi)) (fun i hi => ?_) ?_
    · refine List.Nodup.filterMap (fun i j fd hi hj => ?_) (List.nodup_finRange _)
      obtain ⟨hiUse, hisock, rfl⟩ := retired_iff.mp hi
      obtain ⟨hjUse, -, heq⟩ := retired_iff.mp hj
      exact h.apart i j hiUse hjUse hisock heq.symm
    · exact absurd hsock (retireSockets_none hi)
    · show (if _ then _ else _ : MqttClient).inUse = true
      split <;> exact h.used i hi
    · have hserver := h.server
      have hunheld : ∀ fd, s.retireSockets.Unheld fd := fun fd i hi hsock => absurd hsock (retireSockets_none hi)
      have hnotin : ∀ fd, fd ∉ s.closing → s.Unheld fd → fd ∉ s.retireSockets.closing := by
        intro fd hnot hfree hin
        rcases List.mem_append.mp hin with hin | hin
        · exact hnot hin
        · exact retired_held hin hfree
      show s.retireSockets.PhaseHolds s.server
      cases hphase : s.server with
      | accepted sock =>
        rw [hphase] at hserver
        exact ⟨hserver.1, hnotin sock hserver.2.1 hserver.2.2, hunheld sock⟩
      | admitting sock =>
        rw [hphase] at hserver
        exact ⟨hserver.1, hnotin sock hserver.2.1 hserver.2.2, hunheld sock⟩
      | creating i sock =>
        rw [hphase] at hserver
        exact ⟨hserver.1, .inr hguard.1, fun j _ hj hsock => absurd hsock (retireSockets_none hj)⟩
      | closing sock => exact ⟨.inr hguard.1, hunheld sock⟩
      | _ => trivial
  · cases hs

theorem DescriptorInv.step {s s' : Sockets} {act : SocketAct} (h : DescriptorInv s)
    (hs : socketStep s act s') : DescriptorInv s' := by
  cases act with
  | check => exact h.check hs
  | accept sock => exact h.accept hs
  | records act => exact h.records hs
  | serverClose => exact h.serverClose hs
  | stop =>
    cases hs
    refine h.fewer rfl rfl rfl (fun hquiet => ⟨rfl, hquiet.2⟩) (.refl _) h.used ?_
    have hserver := h.server
    dsimp only
    cases hphase : s.server with
    | creating i sock =>
      rw [hphase] at hserver
      exact ⟨hserver.1, .inr rfl, hserver.2.2⟩
    | closing sock =>
      rw [hphase] at hserver
      exact ⟨.inr rfl, hserver.2⟩
    | _ =>
      rw [hphase] at hserver
      exact hserver
  | retire => exact h.retire hs
  | close sock => exact h.close hs

/-! ## The protocol -/

structure ShutdownInv (s : Sockets) : Prop where
  pool : PoolInv s.broker
  claims : ClaimInv s.broker
  descriptors : DescriptorInv s

theorem ShutdownInv.start (nextConnectionId : UInt64) (directory : List MachineEntry) :
    ShutdownInv (.start nextConnectionId directory) :=
  ⟨.start _ _, .start _ _, .start _ _⟩

/-- What a step of the records is to the sockets. -/
structure RecordsStep (s : Sockets) (b : Broker) (s' : Sockets) : Prop where
  broker : s'.broker = b
  owner : s'.owner = s.owner
  /-- A record changes its connection when it is handed out. -/
  connection : ∀ i, (s.broker.clients i).inUse = true → s'.connection i = s.connection i

theorem recordsAfter_step {s s' : Sockets} {b : Broker} {act : BrokerAct}
    (hb : brokerStep s.broker act b) (h : s.recordsAfter b act = some s') : RecordsStep s b s' := by
  unfold Sockets.recordsAfter at h
  cases act with
  | accept sock peerKey receivingInterface sourceProven =>
    dsimp only at h
    split at h
    · rcases accept_next hb with ⟨hnone, -⟩ | ⟨j, hsome, -, -, hfree, -⟩
      · rw [hnone] at h
        cases h
        exact ⟨rfl, rfl, fun _ _ => rfl⟩
      · rw [hsome] at h
        cases h
        refine ⟨rfl, rfl, fun i hi => Function.update_of_ne ?_ _ _⟩
        rintro rfl
        cases hi.symm.trans (Slots.firstFree_spec hfree)
    · cases h
  | taskCreated i =>
    dsimp only at h
    split at h
    · split at h
      · cases h
        exact ⟨rfl, rfl, fun _ _ => rfl⟩
      · cases h
    · cases h
  | taskFailed i =>
    dsimp only at h
    split at h
    · split at h
      · cases h
        exact ⟨rfl, rfl, fun _ _ => rfl⟩
      · cases h
    · cases h
  | _ =>
    cases h
    exact ⟨rfl, rfl, fun _ _ => rfl⟩

/-- The records are those a step of theirs, or the stop, leaves. -/
theorem Sockets.next_broker {s s' : Sockets} {act : SocketAct} (h : socketStep s act s') :
    s'.broker = s.broker ∨ (∃ ract, act = .records ract ∧ brokerStep s.broker ract s'.broker) ∨
      ((∀ i, (s.broker.clients i).shutdownClaimed = false) ∧ s' = s.retireSockets) := by
  unfold socketStep Sockets.next at h
  cases act with
  | records ract =>
    obtain ⟨b, hb, hafter⟩ := Option.bind_eq_some_iff.mp h
    have hbroker := (recordsAfter_step hb hafter).broker
    refine .inr (.inl ⟨ract, rfl, ?_⟩)
    rw [hbroker]
    exact hb
  | retire =>
    dsimp only at h
    split at h
    · next hguard =>
      cases h
      exact .inr (.inr ⟨fun i => Bool.eq_false_iff.mpr (hguard.2 i), rfl⟩)
    · cases h
  | check =>
    dsimp only at h
    split at h
    · cases h
      exact .inl rfl
    · cases h
      exact .inl rfl
    · cases h
  | accept sock =>
    dsimp only at h
    split_ifs at h
    · cases h
      exact .inl rfl
    · cases h
      exact .inl rfl
  | serverClose =>
    dsimp only at h
    split at h
    · cases h
      exact .inl rfl
    · cases h
  | stop =>
    cases h
    exact .inl rfl
  | close sock =>
    dsimp only at h
    split_ifs at h
    cases h
    exact .inl rfl

theorem retireSockets_same (s : Sockets) (i : Fin mqttMaxConnections) :
    SamePool (s.broker.clients i) (s.retireSockets.broker.clients i) ∧
      (s.retireSockets.broker.clients i).shutdownClaimed =
        (s.broker.clients i).shutdownClaimed := by
  unfold Sockets.retireSockets
  dsimp only
  split
  · exact ⟨⟨rfl, rfl, rfl, rfl, rfl⟩, rfl⟩
  · exact ⟨.refl _, rfl⟩

theorem ShutdownInv.step {s s' : Sockets} {act : SocketAct} (h : ShutdownInv s)
    (hs : socketStep s act s') : ShutdownInv s' := by
  rcases Sockets.next_broker hs with hsame | ⟨ract, -, hb⟩ | ⟨hfree, rfl⟩
  · exact ⟨hsame ▸ h.pool, hsame ▸ h.claims, h.descriptors.step hs⟩
  · exact ⟨h.pool.step hb, h.claims.step h.pool hb, h.descriptors.step hs⟩
  · refine ⟨h.pool.same (fun i => (retireSockets_same s i).1) rfl fun _ hi => hi, ?_,
      h.descriptors.step hs⟩
    refine ⟨fun i hi => ?_, fun t ht => ?_, h.claims.once⟩
    · rw [(retireSockets_same s i).2, hfree i] at hi
      cases hi
    · cases (hfree t.slot).symm.trans (h.claims.target t ht).claimed

/-- A claimed descriptor is open for the connection of its record, and nobody else has it. -/
structure TargetHeld (s : Sockets) (t : DisconnectTarget) : Prop where
  record : Claimed (s.broker.clients t.slot) t
  isOpen : s.owner t.socketFd = some (s.connection t.slot)
  alone : ∀ i, (s.broker.clients i).inUse = true → (s.broker.clients i).sock = t.socketFd →
    i = t.slot
  notClosing : t.socketFd ∉ s.closing
  /-- The release never waits. -/
  release : ∃ s', socketStep s (.records (.release t)) s'

theorem ShutdownInv.targetHeld {s : Sockets} (h : ShutdownInv s) {t : DisconnectTarget}
    (ht : t ∈ s.broker.targets) : TargetHeld s t := by
  have hrecord := h.claims.target t ht
  have hsock : 0 ≤ (s.broker.clients t.slot).sock := hrecord.sock ▸ hrecord.nonneg
  refine ⟨hrecord, ?_, fun i hi heq => ?_, fun hmem => ?_, ?_⟩
  · rw [← hrecord.sock]
    exact h.descriptors.held t.slot hrecord.inUse hsock
  · exact h.descriptors.apart i t.slot hi hrecord.inUse (heq ▸ hrecord.nonneg)
      (heq.trans hrecord.sock.symm)
  · exact h.descriptors.unheld _ hmem t.slot hrecord.inUse hsock hrecord.sock
  · refine ⟨{ s with broker := s.broker.releaseDisconnectClaim t }, ?_⟩
    have hnext : s.broker.next (.release t) = some (s.broker.releaseDisconnectClaim t) := if_pos ht
    unfold socketStep Sockets.next
    dsimp only
    rw [hnext]
    rfl

/-- What a step does to the claims. -/
structure ClaimStep (v : Move Sockets SocketAct) : Prop where
  /-- The record stays with its connection while it is claimed. -/
  kept : ∀ t ∈ v.pre.broker.targets, t ∈ v.post.broker.targets →
    v.post.connection t.slot = v.pre.connection t.slot
  /-- A claim ends in its own release, once, which finds the record as it was claimed. -/
  ended : ∀ t ∈ v.pre.broker.targets, t ∉ v.post.broker.targets → v.ev = .records (.release t)
  released : ∀ t, v.ev = .records (.release t) → t ∈ v.pre.broker.targets ∧
    t ∉ v.post.broker.targets ∧ (v.post.broker.clients t.slot).shutdownClaimed = false
  /-- Nothing else clears the flag. -/
  cleared : ∀ i, (v.pre.broker.clients i).shutdownClaimed = true →
    (v.post.broker.clients i).shutdownClaimed = false →
      ∃ t ∈ v.pre.broker.targets, t.slot = i ∧ v.ev = .records (.release t)
  /-- A record goes back to the pool unclaimed. -/
  pool : ∀ i, (v.pre.broker.clients i).inUse = true → (v.post.broker.clients i).inUse = false →
    (v.pre.broker.clients i).shutdownClaimed = false

theorem brokerStep_targets {b b' : Broker} {act : BrokerAct} (h : brokerStep b act b')
    {t : DisconnectTarget} (ht : t ∈ b.targets) : t ∈ b'.targets ∨ act = .release t := by
  cases brokerStep_move h with
  | claim identifier => exact .inl (List.mem_append_left _ ht)
  | release u =>
    by_cases htu : t = u
    · exact .inr (htu ▸ rfl)
    · exact .inl ((List.mem_erase_of_ne htu).mpr ht)
  | fence identifier =>
    unfold Broker.fenceMachineAuthentication
    dsimp only
    split <;> exact .inl ht
  | _ => exact .inl ht

theorem socketStep_connection {s s' : Sockets} {act : SocketAct} (h : socketStep s act s')
    {i : Fin mqttMaxConnections} (hi : (s.broker.clients i).inUse = true) :
    s'.connection i = s.connection i := by
  unfold socketStep Sockets.next at h
  cases act with
  | records ract =>
    obtain ⟨b, hb, hafter⟩ := Option.bind_eq_some_iff.mp h
    exact (recordsAfter_step hb hafter).connection i hi
  | check =>
    dsimp only at h
    split at h <;> cases h <;> rfl
  | accept sock =>
    dsimp only at h
    split_ifs at h <;> cases h <;> rfl
  | serverClose =>
    dsimp only at h
    split at h <;> cases h
    rfl
  | stop =>
    cases h
    rfl
  | retire =>
    dsimp only at h
    split at h <;> cases h
    rfl
  | close sock =>
    dsimp only at h
    split at h <;> cases h
    rfl

theorem ShutdownInv.claimStep {s s' : Sockets} {act : SocketAct} (h : ShutdownInv s)
    (hs : socketStep s act s') : ClaimStep ⟨s, act, s'⟩ := by
  have hpost := h.step hs
  have hended : ∀ t ∈ s.broker.targets, t ∉ s'.broker.targets → act = .records (.release t) := by
    intro t ht hnot
    rcases Sockets.next_broker hs with hsame | ⟨ract, rfl, hb⟩ | ⟨-, rfl⟩
    · rw [hsame] at hnot
      exact absurd ht hnot
    · rw [(brokerStep_targets hb ht).resolve_left hnot]
    · exact absurd ht hnot
  have hrelease : ∀ t, act = .records (.release t) → t ∈ s.broker.targets ∧
      s'.broker = s.broker.releaseDisconnectClaim t := by
    rintro t rfl
    obtain ⟨b, hb, hafter⟩ := Option.bind_eq_some_iff.mp hs
    obtain ⟨ht, rfl⟩ := release_next hb
    cases hafter
    exact ⟨ht, rfl⟩
  refine ⟨fun t ht _ => ?_, hended, fun t hact => ?_, fun i hset hclear => ?_, fun i hi hgone => ?_⟩
  · exact socketStep_connection hs (h.claims.target t ht).inUse
  · obtain ⟨ht, heq⟩ := hrelease t hact
    refine ⟨ht, ?_, ?_⟩
    · dsimp only
      rw [heq]
      exact fun hmem => ((h.claims.once.of_map _).mem_erase_iff.mp hmem).1 rfl
    · dsimp only
      rw [heq, h.claims.release_clients ht, Function.update_self]
  · obtain ⟨t, ht, rfl⟩ := h.claims.flag i hset
    refine ⟨t, ht, rfl, hended t ht fun hmem => ?_⟩
    cases hclear.symm.trans (hpost.claims.target t hmem).claimed
  · by_contra hset
    obtain ⟨t, ht, rfl⟩ := h.claims.flag i (Bool.eq_true_of_not_eq_false hset)
    by_cases hmem : t ∈ s'.broker.targets
    · cases hgone.symm.trans (hpost.claims.target t hmem).inUse
    · obtain ⟨-, heq⟩ := hrelease t (hended t ht hmem)
      dsimp only at hgone
      rw [heq, h.claims.release_clients ht, Function.update_self] at hgone
      cases hgone.symm.trans hi

/-- **The shutdown claim**: in every interleaving a claimed descriptor stays open for its
connection, and its claim ends once, in its own release. -/
theorem shutdown_claim {nextConnectionId : UInt64} {directory : List MachineEntry}
    {ms : List (Move Sockets SocketAct)}
    (h : IsRun socketStep (.start nextConnectionId directory) ms) :
    (∀ t ∈ (final (Sockets.start nextConnectionId directory) ms).broker.targets,
      TargetHeld (final (Sockets.start nextConnectionId directory) ms) t) ∧
    ∀ v ∈ ms, (∀ t ∈ v.pre.broker.targets, TargetHeld v.pre t) ∧ ClaimStep v := by
  obtain ⟨hmoves, hfinal⟩ := h.inv (ShutdownInv.start nextConnectionId directory)
    fun v hv hs => ShutdownInv.step hv hs
  refine ⟨fun t ht => hfinal.targetHeld ht, fun v hv => ⟨fun t ht => ?_, ?_⟩⟩
  · exact (hmoves v hv).1.targetHeld ht
  · exact (hmoves v hv).1.claimStep (h.step_of_mem v hv)

/-- The panel connects. -/
def panelSocket : List SocketAct :=
  [.check, .accept 54, .check, .records (.accept 54 1 machineInterfaceSoftap false),
    .records (.taskCreated 0), .records (.connect 0 panelConnect), .records (.find 0 true),
    .records (.bind 0 true), .records (.connack 0 true)]

/-- The panel is disconnected while it leaves and the broker stops: both have to wait. -/
theorem shutdown_claim_panel :
    let start := Sockets.start 0 [panelEntry]
    let ms := socketTrace start (panelSocket ++
      [.records (.claim (txt "hmi-01")), .records (.leave 0), .stop])
    let s := final start ms
    (∀ t ∈ s.broker.targets, TargetHeld s t) ∧ s.broker.targets = [⟨0, 1, 54⟩] ∧
      (s.next (.records (.close 0))).isNone = true ∧ (s.next .retire).isNone = true := by
  intro start ms
  exact ⟨(shutdown_claim (isRun_socketTrace start _ : IsRun socketStep start ms)).1,
    by decide +kernel, by decide +kernel, by decide +kernel⟩

end Argus
