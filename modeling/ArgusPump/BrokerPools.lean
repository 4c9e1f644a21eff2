import ArgusPump.Broker

/-!
# The two pools of connection records

Records and session slots under every order of accepts, CONNECTs, closes, task-creation
failures, fences and disconnects.

    what every step keeps                                             (PoolInv.step)
    the bounds of both pools, and a free record for every admitted socket  (broker_pools)
-/

namespace Argus

open Interact

/-- Pending, and admitted while its source was not proven. -/
def MqttClient.unprovenPending (c : MqttClient) : Bool := c.pending && !c.sourceProven

structure PoolLaw (b : Broker) : Prop where
  pending : b.pendingCount ≤ mqttMaxPreconnect
  unproven : Slots.count MqttClient.unprovenPending b.clients ≤ mqttMaxPreconnectUnproven
  source : ∀ peerKey, b.pendingFromSource peerKey ≤ mqttMaxPreconnectPerSource
  authenticated : b.authenticatedCount ≤ mqttMaxClients
  slot : ∀ i, (b.clients i).connected = true →
    (b.clients i).inUse = true ∧ ∃! k, (b.clients i).sessionSlot = some k ∧ b.sessions k = true
  owner : ∀ k, b.sessions k = true →
    ∃! i, (b.clients i).connected = true ∧ (b.clients i).sessionSlot = some k
  free : ∀ peerKey sourceProven, b.preconnectAdmit peerKey sourceProven = .admitSocket →
    ∃ i, b.freeRecord = some i

/-! ## What every step keeps -/

structure PoolInv (b : Broker) : Prop where
  pending : b.pendingCount ≤ mqttMaxPreconnect
  unproven : Slots.count MqttClient.unprovenPending b.clients ≤ mqttMaxPreconnectUnproven
  source : ∀ i j, (b.clients i).pending = true → (b.clients j).pending = true →
    (b.clients i).peerKey = (b.clients j).peerKey → i = j
  inUse : ∀ i, (b.clients i).connected = true → (b.clients i).inUse = true
  /-- Connected records have slots in use, the others have none. -/
  slot : ∀ i, (b.clients i).connected = true →
    ∃ k, (b.clients i).sessionSlot = some k ∧ b.sessions k = true
  noSlot : ∀ i, (b.clients i).connected = false → (b.clients i).sessionSlot = none
  apart : ∀ i j k, (b.clients i).sessionSlot = some k → (b.clients j).sessionSlot = some k → i = j
  owner : ∀ k, b.sessions k = true →
    ∃ i, (b.clients i).connected = true ∧ (b.clients i).sessionSlot = some k
  created : ∀ i, b.task i = .created → (b.clients i).connected = false

theorem PoolInv.start (nextConnectionId : UInt64) (directory : List MachineEntry) :
    PoolInv (.start nextConnectionId directory) where
  pending := by
    show Slots.count _ _ ≤ _
    rw [Slots.count_eq_zero.mpr fun _ => rfl]
    exact Nat.zero_le _
  unproven := by
    rw [Slots.count_eq_zero.mpr fun _ => rfl]
    exact Nat.zero_le _
  source := fun _ _ h => by cases h
  inUse := fun _ h => by cases h
  slot := fun _ h => by cases h
  noSlot := fun _ _ => rfl
  apart := fun _ _ _ h => by cases h
  owner := fun _ h => by cases h
  created := fun _ _ => rfl

/-- Records that differ in what the pools do not look at. -/
structure SamePool (c d : MqttClient) : Prop where
  inUse : d.inUse = c.inUse
  connected : d.connected = c.connected
  peerKey : d.peerKey = c.peerKey
  sessionSlot : d.sessionSlot = c.sessionSlot
  sourceProven : d.sourceProven = c.sourceProven

theorem SamePool.pending {c d : MqttClient} (h : SamePool c d) : d.pending = c.pending := by
  unfold MqttClient.pending
  rw [h.inUse, h.connected]

theorem SamePool.unprovenPending {c d : MqttClient} (h : SamePool c d) :
    d.unprovenPending = c.unprovenPending := by
  unfold MqttClient.unprovenPending
  rw [h.pending, h.sourceProven]

/-- Steps that leave the pools alone. -/
theorem PoolInv.same {b b' : Broker} (h : PoolInv b)
    (hclients : ∀ i, SamePool (b.clients i) (b'.clients i)) (hsessions : b'.sessions = b.sessions)
    (htask : ∀ i, b'.task i = .created → b.task i = .created) : PoolInv b' := by
  have hcount : ∀ p : MqttClient → Bool, (∀ i, p (b'.clients i) = p (b.clients i)) →
      Slots.count p b'.clients = Slots.count p b.clients := by
    intro p hp
    unfold Slots.count
    simp only [hp]
  refine ⟨?_, ?_, fun i j => ?_, fun i => ?_, fun i => ?_, fun i => ?_, fun i j k => ?_,
    fun k => ?_, fun i hi => ?_⟩
  · show Slots.count _ _ ≤ _
    rw [hcount _ fun i => (hclients i).pending]
    exact h.pending
  · rw [hcount _ fun i => (hclients i).unprovenPending]
    exact h.unproven
  · rw [(hclients i).pending, (hclients j).pending, (hclients i).peerKey, (hclients j).peerKey]
    exact h.source i j
  · rw [(hclients i).connected, (hclients i).inUse]
    exact h.inUse i
  · rw [(hclients i).connected, (hclients i).sessionSlot, hsessions]
    exact h.slot i
  · rw [(hclients i).connected, (hclients i).sessionSlot]
    exact h.noSlot i
  · rw [(hclients i).sessionSlot, (hclients j).sessionSlot]
    exact h.apart i j k
  · rw [hsessions]
    intro hk
    obtain ⟨i, hconn, hslot⟩ := h.owner k hk
    exact ⟨i, (hclients i).connected.trans hconn, (hclients i).sessionSlot.trans hslot⟩
  · rw [(hclients i).connected]
    exact h.created i (htask i hi)

/-- What admission found. -/
theorem preconnectAdmit_spec {b : Broker} {peerKey : UInt32} {sourceProven : Bool}
    (h : b.preconnectAdmit peerKey sourceProven = .admitSocket) :
    b.pendingCount < mqttMaxPreconnect ∧
      (b.pendingCount < mqttMaxPreconnectUnproven ∨ sourceProven = true) ∧
      ∀ i, (b.clients i).pending = true → (b.clients i).peerKey ≠ peerKey := by
  unfold Broker.preconnectAdmit preconnectDecide at h
  split_ifs at h with hpool hreserved hsource
  refine ⟨by omega, ?_, fun i hpending hkey => ?_⟩
  · by_contra hno
    push Not at hno
    refine hreserved ⟨hno.1, ?_⟩
    rw [Bool.eq_false_iff.mpr hno.2, Bool.and_false]
    simp
  · have hzero : b.pendingFromSource peerKey = 0 := by
      unfold mqttMaxPreconnectPerSource at hsource
      omega
    have hnone := Slots.count_eq_zero.mp hzero i
    rw [hpending, hkey] at hnone
    simp at hnone

theorem PoolInv.alloc {b : Broker} (h : PoolInv b) {i : Fin mqttMaxConnections} {sock : Int}
    {peerKey : UInt32} {receivingInterface : UInt8} {sourceProven : Bool}
    (haccept : b.preconnectAdmit peerKey sourceProven = .admitSocket) (hfree : b.freeRecord = some i) :
    PoolInv (b.takeRecord i sock peerKey receivingInterface sourceProven) := by
  have hunused : (b.clients i).inUse = false := Slots.firstFree_spec hfree
  have hconn : (b.clients i).connected = false := by
    rw [← Bool.not_eq_true]
    intro hconn
    rw [h.inUse i hconn] at hunused
    cases hunused
  have hnoslot := h.noSlot i hconn
  obtain ⟨hpool, hreserved, hsource⟩ := preconnectAdmit_spec haccept
  have hset : ∀ j, (b.takeRecord i sock peerKey receivingInterface sourceProven).clients j =
      if j = i then (⟨true, false, false, false, sock, b.nextConnectionId + 1, peerKey,
        receivingInterface, [], ⟨.empty, 0⟩, none, sourceProven⟩ : MqttClient)
      else b.clients j := fun j => Function.update_apply _ _ _ _
  refine ⟨?_, ?_, fun j l hj hl hkey => ?_, fun j hj => ?_, fun j hj => ?_, fun j hj => ?_,
    fun j l k hj hl => ?_, fun k hk => ?_, fun j hj => ?_⟩
  · exact (Slots.count_update_le_succ _ _ _ _).trans hpool
  · show Slots.count _ (Function.update b.clients i _) ≤ _
    by_cases hproven : sourceProven = true
    · -- a proven source does not count
      refine (Slots.count_update_le fun hnew => ?_).trans h.unproven
      rw [hproven] at hnew
      cases hnew
    · refine (Slots.count_update_le_succ _ _ _ _).trans ?_
      have hle : Slots.count MqttClient.unprovenPending b.clients ≤ b.pendingCount :=
        Slots.count_le_count (fun c hc => (Bool.and_eq_true _ _ ▸ hc).1) _
      exact (Nat.succ_le_of_lt (hle.trans_lt (hreserved.resolve_right hproven)))
  · rw [hset] at hj hl hkey
    rw [hset] at hkey
    split_ifs at hj hl hkey with hji hli hli
    · rw [hji, hli]
    · exact absurd hkey.symm (hsource l hl)
    · exact absurd hkey (hsource j hj)
    · exact h.source j l hj hl hkey
  · rw [hset] at hj ⊢
    split_ifs at hj ⊢
    exact h.inUse j hj
  · rw [hset] at hj ⊢
    split_ifs at hj ⊢
    exact h.slot j hj
  · rw [hset] at hj ⊢
    split_ifs at hj ⊢
    · rfl
    · exact h.noSlot j hj
  · rw [hset] at hj hl
    split_ifs at hj hl
    exact h.apart j l k hj hl
  · obtain ⟨j, hj, hslot⟩ := h.owner k hk
    refine ⟨j, ?_⟩
    have hne : j ≠ i := by
      rintro rfl
      rw [hnoslot] at hslot
      cases hslot
    rw [hset, if_neg hne]
    exact ⟨hj, hslot⟩
  · rw [hset]
    split_ifs with hji
    · rfl
    · refine h.created j ?_
      have htask : Function.update b.task i .created j = .created := hj
      rwa [Function.update_of_ne hji] at htask

/-- A record that is no longer pending leaves its pool. -/
theorem PoolInv.leaves_pending {b : Broker} (h : PoolInv b) (i : Fin mqttMaxConnections)
    {c : MqttClient} (hgone : c.pending = false) :
    Slots.count MqttClient.pending (Function.update b.clients i c) ≤ mqttMaxPreconnect ∧
      Slots.count MqttClient.unprovenPending (Function.update b.clients i c) ≤
        mqttMaxPreconnectUnproven ∧
      ∀ j l, (Function.update b.clients i c j).pending = true →
        (Function.update b.clients i c l).pending = true →
        (Function.update b.clients i c j).peerKey = (Function.update b.clients i c l).peerKey →
          j = l := by
  have hset : ∀ j, Function.update b.clients i c j = if j = i then c else b.clients j :=
    fun j => Function.update_apply _ _ _ _
  refine ⟨?_, ?_, fun j l hj hl hkey => ?_⟩
  · refine (Slots.count_update_le fun hnew => ?_).trans h.pending
    rw [hgone] at hnew
    cases hnew
  · refine (Slots.count_update_le fun hnew => ?_).trans h.unproven
    rw [MqttClient.unprovenPending, hgone] at hnew
    cases hnew
  · rw [hset] at hj hl hkey
    rw [hset] at hkey
    split_ifs at hj hl hkey with hji hli hli
    · rw [hji, hli]
    · rw [hgone] at hj
      cases hj
    · rw [hgone] at hl
      cases hl
    · exact h.source j l hj hl hkey

/-- A pending record gets a free slot. -/
theorem PoolInv.connect {b : Broker} (h : PoolInv b) {i : Fin mqttMaxConnections}
    {request : ConnectRequest} {expectedConnectionId : UInt64} {principal : Principal}
    {k : Fin mqttMaxClients} (hused : (b.clients i).inUse = true)
    (hconn : (b.clients i).connected = false) (hclaim : b.sessionClaim i = some k) :
    PoolInv (b.connectClient i request expectedConnectionId principal k) := by
  have hnoslot := h.noSlot i hconn
  have hfree : b.sessions k = false := by
    unfold Broker.sessionClaim at hclaim
    rw [hnoslot] at hclaim
    exact Slots.firstFree_spec hclaim
  have hunowned : ∀ j, (b.clients j).sessionSlot ≠ some k := by
    intro j hj
    by_cases hjconn : (b.clients j).connected = true
    · obtain ⟨l, hl, hin⟩ := h.slot j hjconn
      rw [hj] at hl
      cases hl
      rw [hfree] at hin
      cases hin
    · rw [h.noSlot j (Bool.eq_false_iff.mpr hjconn)] at hj
      cases hj
  let c : MqttClient := { b.clients i with
    sessionSlot := some k
    clientId := request.clientId
    principal := principal
    connected := true }
  have hset : ∀ j, (b.connectClient i request expectedConnectionId principal k).clients j =
      if j = i then c else b.clients j := fun j => Function.update_apply _ _ _ _
  have hsessions : ∀ l, (b.connectClient i request expectedConnectionId principal k).sessions l =
      if l = k then true else b.sessions l := fun l => Function.update_apply _ _ _ _
  obtain ⟨hpending, hunproven, hsource⟩ := h.leaves_pending i (c := c) (Bool.and_false _)
  refine ⟨hpending, hunproven, hsource, fun j hj => ?_, fun j hj => ?_, fun j hj => ?_,
    fun j l m hj hl => ?_, fun m hm => ?_, fun j hj => ?_⟩
  · rw [hset] at hj ⊢
    split_ifs at hj ⊢
    · exact hused
    · exact h.inUse j hj
  · rw [hset] at hj ⊢
    split_ifs at hj ⊢
    · exact ⟨k, rfl, by rw [hsessions, if_pos rfl]⟩
    · obtain ⟨l, hl, hin⟩ := h.slot j hj
      refine ⟨l, hl, ?_⟩
      rw [hsessions, hin, ite_self]
  · rw [hset] at hj ⊢
    split_ifs at hj ⊢
    exact h.noSlot j hj
  · rw [hset] at hj hl
    split_ifs at hj hl with hji hli hli
    · rw [hji, hli]
    · cases hj
      exact absurd hl (hunowned l)
    · cases hl
      exact absurd hj (hunowned j)
    · exact h.apart j l m hj hl
  · rw [hsessions] at hm
    split_ifs at hm with hmk
    · refine ⟨i, ?_⟩
      rw [hset, if_pos rfl, hmk]
      exact ⟨rfl, rfl⟩
    · obtain ⟨j, hj, hslot⟩ := h.owner m hm
      refine ⟨j, ?_⟩
      have hne : j ≠ i := by
        rintro rfl
        rw [hnoslot] at hslot
        cases hslot
      rw [hset, if_neg hne]
      exact ⟨hj, hslot⟩
  · rw [hset]
    have htask : Function.update b.task i (.connacking expectedConnectionId) j = .created := hj
    have hne : j ≠ i := by
      rintro rfl
      rw [Function.update_self] at htask
      cases htask
    rw [Function.update_of_ne hne] at htask
    rw [if_neg hne]
    exact h.created j htask

theorem sessionRelease_apply (b : Broker) (i : Fin mqttMaxConnections) (k : Fin mqttMaxClients) :
    b.sessionRelease i k = if (b.clients i).sessionSlot = some k then false else b.sessions k := by
  unfold Broker.sessionRelease
  cases (b.clients i).sessionSlot with
  | none => rfl
  | some l =>
    dsimp only
    rw [Function.update_apply]
    simp only [Option.some.injEq, eq_comm]

/-- A record is given back with its slot; `c` is what becomes of it. -/
theorem PoolInv.free {b b' : Broker} (h : PoolInv b) {i : Fin mqttMaxConnections} {c : MqttClient}
    (hclients : b'.clients = Function.update b.clients i c)
    (hsessions : b'.sessions = b.sessionRelease i)
    (htask : b'.task = Function.update b.task i .none) (hused : c.inUse = false)
    (hconn : c.connected = false) (hslot : c.sessionSlot = none) : PoolInv b' := by
  have hset : ∀ j, b'.clients j = if j = i then c else b.clients j := by
    intro j
    rw [hclients]
    exact Function.update_apply _ _ _ _
  have hgone : c.pending = false := by
    unfold MqttClient.pending
    rw [hused]
    rfl
  -- the slot of another record is still in use
  have hkept : ∀ j l, j ≠ i → (b.clients j).sessionSlot = some l → b.sessions l = true →
      b'.sessions l = true := by
    intro j l hne hl hin
    rw [hsessions, sessionRelease_apply, if_neg, hin]
    exact fun hi => hne (h.apart j i l hl hi)
  obtain ⟨hpending, hunproven, hsource⟩ := h.leaves_pending i hgone
  rw [← hclients] at hpending hunproven hsource
  refine ⟨hpending, hunproven, hsource, fun j hj => ?_, fun j hj => ?_, fun j hj => ?_,
    fun j l m hj hl => ?_, fun m hm => ?_, fun j hj => ?_⟩
  · rw [hset] at hj ⊢
    split_ifs at hj ⊢
    · rw [hconn] at hj
      cases hj
    · exact h.inUse j hj
  · rw [hset] at hj ⊢
    split_ifs at hj ⊢ with hji
    · rw [hconn] at hj
      cases hj
    · obtain ⟨l, hl, hin⟩ := h.slot j hj
      exact ⟨l, hl, hkept j l hji hl hin⟩
  · rw [hset] at hj ⊢
    split_ifs at hj ⊢
    · exact hslot
    · exact h.noSlot j hj
  · rw [hset] at hj hl
    split_ifs at hj hl
    · rw [hslot] at hj
      cases hj
    · rw [hslot] at hj
      cases hj
    · rw [hslot] at hl
      cases hl
    · exact h.apart j l m hj hl
  · rw [hsessions, sessionRelease_apply] at hm
    split_ifs at hm with hmine
    obtain ⟨j, hj, hjslot⟩ := h.owner m hm
    refine ⟨j, ?_⟩
    have hne : j ≠ i := by
      rintro rfl
      exact hmine hjslot
    rw [hset, if_neg hne]
    exact ⟨hj, hjslot⟩
  · rw [hset]
    split_ifs with hji
    · exact hconn
    · refine h.created j ?_
      rw [htask, Function.update_of_ne hji] at hj
      exact hj

theorem bindAllowed_spec {invalidations : InvalidationJournal} {c : MqttClient}
    {expectedConnectionId generation : UInt64} {identifier : Bytes} {duplicate : Bool}
    (h : bindAllowed invalidations c expectedConnectionId identifier generation duplicate = true) :
    c.inUse = true ∧ c.connected = false ∧ duplicate = false ∧
      invalidations.since identifier generation = false := by
  unfold bindAllowed at h
  simp only [Bool.and_eq_true, Bool.not_eq_true'] at h
  exact ⟨h.1.1.1.1.1, h.1.1.1.1.2, h.1.2, h.2⟩

theorem SamePool.refl (c : MqttClient) : SamePool c c := ⟨rfl, rfl, rfl, rfl, rfl⟩

theorem PoolInv.step {b b' : Broker} {act : BrokerAct} (h : PoolInv b)
    (hs : brokerStep b act b') : PoolInv b' := by
  cases brokerStep_move hs with
  | refuse => exact h
  | alloc sock peerKey receivingInterface sourceProven i _ haccept hfree => exact h.alloc haccept hfree
  | goto _ i phase _ hphase =>
    refine h.same (fun _ => .refl _) rfl fun j hj => ?_
    have htask : Function.update b.task i phase j = .created := hj
    rw [Function.update_apply] at htask
    split_ifs at htask
    · rw [htask] at hphase
      cases hphase
    · exact htask
  | capture i request htask =>
    refine h.same (fun _ => .refl _) rfl fun j hj => ?_
    have hj : Function.update b.task i _ j = .created := hj
    rw [Function.update_apply] at hj
    split_ifs at hj
    exact hj
  | lookup i throttle request cid g htask hrequest =>
    refine h.same (fun _ => .refl _) rfl fun j hj => ?_
    have hj : Function.update b.task i _ j = .created := hj
    rw [Function.update_apply] at hj
    split_ifs at hj
    exact hj
  | bound i verified request cid g found principal k htask hrecord hallowed hclaim =>
    obtain ⟨hused, hconn, -, -⟩ := bindAllowed_spec hallowed
    exact h.connect hused hconn hclaim
  | abandon i htask => exact h.free rfl rfl rfl rfl (h.created i htask) rfl
  | close i => exact h.free rfl rfl rfl rfl rfl rfl
  | commit => exact h.same (fun _ => .refl _) rfl fun _ hj => hj
  | fence identifier =>
    unfold Broker.fenceMachineAuthentication
    dsimp only
    split
    · refine h.same (fun i => ?_) rfl fun _ hj => hj
      dsimp only
      split
      · exact ⟨rfl, rfl, rfl, rfl, rfl⟩
      · exact .refl _
    · exact h
  | claim identifier =>
    refine h.same (fun i => ?_) rfl fun _ hj => hj
    unfold Broker.claimDisconnect
    dsimp only
    split
    · exact ⟨rfl, rfl, rfl, rfl, rfl⟩
    · exact .refl _
  | release target =>
    refine h.same (fun i => ?_) rfl fun _ hj => hj
    unfold Broker.releaseDisconnectClaim
    dsimp only
    split
    · rw [Function.update_apply]
      split
      · next hi =>
        rw [hi]
        exact ⟨rfl, rfl, rfl, rfl, rfl⟩
      · exact .refl _
    · exact .refl _

/-! ## The pools -/

/-- Connected records own different slots. -/
theorem PoolInv.authenticated {b : Broker} (h : PoolInv b) :
    b.authenticatedCount ≤ mqttMaxClients := by
  refine Slots.count_le_of_owner MqttClient.sessionSlot (fun i hi => ?_) h.apart
  obtain ⟨k, hk, -⟩ := h.slot i (Bool.and_eq_true _ _ ▸ hi).2
  exact ⟨k, hk⟩

theorem PoolInv.law {b : Broker} (h : PoolInv b) : PoolLaw b where
  pending := h.pending
  unproven := h.unproven
  source peerKey := by
    unfold Broker.pendingFromSource Slots.count mqttMaxPreconnectPerSource
    rw [Finset.card_le_one]
    intro i hi j hj
    simp only [Finset.mem_filter, Bool.and_eq_true, decide_eq_true_eq] at hi hj
    exact h.source i j hi.2.1 hj.2.1 (hi.2.2.trans hj.2.2.symm)
  authenticated := h.authenticated
  slot i hi := by
    obtain ⟨k, hk, hin⟩ := h.slot i hi
    refine ⟨h.inUse i hi, k, ⟨hk, hin⟩, fun l hl => ?_⟩
    exact Option.some.inj (hl.1.symm.trans hk)
  owner k hk := by
    obtain ⟨i, hi, hslot⟩ := h.owner k hk
    exact ⟨i, ⟨hi, hslot⟩, fun j hj => h.apart j i k hj.2 hslot⟩
  free peerKey sourceProven haccept := by
    refine Slots.exists_firstFree ?_
    have hpending := (preconnectAdmit_spec haccept).1
    have hsplit : Slots.count MqttClient.inUse b.clients = b.pendingCount + b.authenticatedCount :=
      Slots.count_split MqttClient.inUse MqttClient.connected b.clients
    rw [hsplit]
    exact Nat.add_lt_add_of_lt_of_le hpending h.authenticated

theorem broker_pools {nextConnectionId : UInt64} {directory : List MachineEntry} {b : Broker}
    (h : Reach brokerStep (Broker.start nextConnectionId directory) b) : PoolLaw b :=
  (h.inv (PoolInv.start nextConnectionId directory) fun _ hi hs => hi.step hs).law

/-- The panel's entry, and its CONNECT. -/
def panelEntry : MachineEntry :=
  ⟨panelId, machineClientHmi, 1, 0, 3, 3⟩

def panelConnect : ConnectRequest :=
  ⟨txt "hmi-01", txt "hmi-01", List.replicate 43 0x41⟩

/-- The panel's socket up to the admission check. -/
def panelConnects (sock : Int) (i : Fin mqttMaxConnections) : List BrokerAct :=
  [.accept sock 1 machineInterfaceSoftap false, .taskCreated i, .connect i panelConnect,
    .find i true, .bind i true, .connack i true]

/-- The panel connects; of two more sockets one gets no task, a third is refused. -/
theorem broker_pools_panel :
    let start := Broker.start 0 [panelEntry]
    let b := final start (brokerTrace start (panelConnects 54 0 ++
      [.accept 55 2 machineInterfaceSta false, .accept 56 3 machineInterfaceSta false,
        .taskFailed 1, .accept 57 3 machineInterfaceSta true]))
    PoolLaw b ∧ b.authenticatedCount = 1 ∧ b.pendingCount = 1 := by
  intro start b
  exact ⟨broker_pools ⟨_, isRun_brokerTrace _ _, rfl⟩, by decide +kernel, by decide +kernel⟩

end Argus
