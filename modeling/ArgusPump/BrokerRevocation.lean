import ArgusPump.BrokerPools

/-!
# Revocation against a CONNECT under way

A client task captures the journal's generation, reads the directory, derives for seconds
and binds; an administrator commits a change and fences the identifier in between.

    admitted as an identifier → the directory was read after its last fence,
      one record for each identifier                             (revocation_wins)

The bind compares generations, so it is the number of fences during one CONNECT that
must stay below a whole round of the 64-bit generation.
-/

namespace Argus

open Interact InvalidationJournal

/-- The task of record `i` captures the generation. -/
def Captures (i : Fin mqttMaxConnections) (v : Move Broker BrokerAct) : Prop :=
  v.pre.task i = .serving ∧ ∃ request cid generation,
    v.post.task i = .authenticating request cid generation

/-- The task of record `i` reads the directory. -/
def ReadsDirectory (i : Fin mqttMaxConnections) (v : Move Broker BrokerAct) : Prop :=
  (∃ request cid generation, v.pre.task i = .authenticating request cid generation) ∧
    ∃ request cid generation found, v.post.task i = .verifying request cid generation found

/-- The record is handed out to a new connection. -/
def Opens (i : Fin mqttMaxConnections) (v : Move Broker BrokerAct) : Prop :=
  (v.pre.clients i).inUse = false ∧ (v.post.clients i).inUse = true

/-! ## What a step does to one record -/

/-- The record goes on; a fence of its identifier invalidates it. -/
structure KeptClient (c d : MqttClient) (fenced : Option Bytes) : Prop where
  inUse : d.inUse = c.inUse
  connected : d.connected = c.connected
  clientId : d.clientId = c.clientId
  principal : d.principal = c.principal
  sock : d.sock = c.sock
  invalidated : d.securityInvalidated = false → c.securityInvalidated = false ∧
    ∀ identifier, fenced = some identifier → c.disconnectMatches identifier = false

/-- A CONNECT is bound to record `i`; the others stay. -/
structure BoundClient (b b' : Broker) (i : Fin mqttMaxConnections) (request : ConnectRequest)
    (expectedConnectionId generation : UInt64) (found : Option MachineEntry) (verified : Bool)
    (principal : Principal) : Prop where
  task : b.task i = .verifying request expectedConnectionId generation found
  record : authenticateRecord found verified (b.clients i).receivingInterface = some principal
  allowed : bindAllowed b.invalidations (b.clients i) expectedConnectionId
    principal.identifier.bytes generation (b.duplicateClientId i request.clientId) = true
  inUse : (b'.clients i).inUse = (b.clients i).inUse
  clientId : (b'.clients i).clientId = request.clientId
  principal_eq : (b'.clients i).principal = principal
  sock : (b'.clients i).sock = (b.clients i).sock
  others : ∀ j, j ≠ i → b'.clients j = b.clients j

/-- What becomes of record `i`. -/
inductive ClientMove (b : Broker) (act : BrokerAct) (b' : Broker) (i : Fin mqttMaxConnections) :
    Prop
  | kept (h : KeptClient (b.clients i) (b'.clients i) act.fenced)
  | opened (hconn : (b'.clients i).connected = false) (hsock : 0 ≤ (b'.clients i).sock)
      (htask : b'.task i = .created)
  | freed (hused : (b'.clients i).inUse = false) (hconn : (b'.clients i).connected = false)
  | bound (request : ConnectRequest) (cid generation : UInt64) (found : Option MachineEntry)
      (verified : Bool) (principal : Principal) (hact : act = .bind i verified)
      (h : BoundClient b b' i request cid generation found verified principal)

theorem KeptClient.refl (c : MqttClient) {act : BrokerAct} (h : act.fenced = none) :
    KeptClient c c act.fenced := by
  refine ⟨rfl, rfl, rfl, rfl, rfl, fun hc => ⟨hc, fun identifier hid => ?_⟩⟩
  rw [h] at hid
  cases hid

/-- A record other than the one updated. -/
theorem KeptClient.update {c : MqttClient} {clients : Fin mqttMaxConnections → MqttClient}
    {i j : Fin mqttMaxConnections} {act : BrokerAct} (h : act.fenced = none) (hne : j ≠ i) :
    KeptClient (clients j) (Function.update clients i c j) act.fenced := by
  rw [Function.update_of_ne hne]
  exact .refl _ h

theorem KeptClient.invalidate {c : MqttClient} {fenced : Option Bytes} :
    KeptClient c { c with securityInvalidated := true } fenced :=
  ⟨rfl, rfl, rfl, rfl, rfl, fun h => by cases h⟩

theorem clientMove {b b' : Broker} {act : BrokerAct} (hpool : PoolInv b)
    (hs : brokerStep b act b') (i : Fin mqttMaxConnections) : ClientMove b act b' i := by
  cases brokerStep_move hs with
  | refuse => exact .kept (.refl _ rfl)
  | alloc sock peerKey receivingInterface sourceProven l hsock _ hfree =>
    by_cases hi : i = l
    · subst hi
      have hset : (b.takeRecord i sock peerKey receivingInterface sourceProven).clients i = _ :=
        Function.update_self _ _ _
      refine .opened ?_ ?_ (Function.update_self _ _ _)
      · rw [hset]
        rfl
      · rw [hset]
        exact hsock
    · exact .kept (.update rfl hi)
  | goto _ l phase hact => exact .kept (.refl _ hact)
  | capture => exact .kept (.refl _ rfl)
  | lookup => exact .kept (.refl _ rfl)
  | bound l verified request cid g found principal k htask hrecord hallowed hclaim =>
    by_cases hi : i = l
    · subst hi
      have hset : (b.connectClient i request cid principal k).clients i = _ :=
        Function.update_self _ _ _
      refine .bound request cid g found verified principal rfl ⟨htask, hrecord, hallowed, ?_, ?_, ?_,
        ?_, fun j hj => Function.update_of_ne hj _ _⟩
      · rw [hset]
      · rw [hset]
      · rw [hset]
      · rw [hset]
    · exact .kept (.update rfl hi)
  | abandon l htask =>
    by_cases hi : i = l
    · subst hi
      have hset : (b.abandonClient i).clients i = _ := Function.update_self _ _ _
      refine .freed ?_ ?_
      · rw [hset]
      · rw [hset]
        exact hpool.created i htask
    · exact .kept (.update rfl hi)
  | close l =>
    by_cases hi : i = l
    · subst hi
      have hset : (b.closeClient i).clients i = _ := Function.update_self _ _ _
      refine .freed ?_ ?_
      · rw [hset]
      · rw [hset]
    · exact .kept (.update rfl hi)
  | commit => exact .kept (.refl _ rfl)
  | fence identifier =>
    refine .kept ?_
    unfold Broker.fenceMachineAuthentication BrokerAct.fenced
    by_cases hvalid : identifierValid identifier = true
    · dsimp only
      rw [record_fst, if_pos hvalid, if_pos hvalid]
      dsimp only
      split
      · exact .invalidate
      · next hmatch =>
        refine ⟨rfl, rfl, rfl, rfl, rfl, fun hc => ⟨hc, fun id hid => ?_⟩⟩
        cases hid
        exact Bool.eq_false_iff.mpr hmatch
    · dsimp only
      rw [record_fst, if_neg hvalid, if_neg hvalid]
      exact ⟨rfl, rfl, rfl, rfl, rfl, fun hc => ⟨hc, fun _ hid => by cases hid⟩⟩
  | claim identifier =>
    refine .kept ?_
    unfold Broker.claimDisconnect
    dsimp only
    split
    · exact ⟨rfl, rfl, rfl, rfl, rfl, fun hc => by cases hc⟩
    · exact .refl _ rfl
  | release target =>
    refine .kept ?_
    unfold Broker.releaseDisconnectClaim
    dsimp only
    split
    · by_cases hi : i = target.slot
      · subst hi
        rw [Function.update_self]
        exact ⟨rfl, rfl, rfl, rfl, rfl, fun hc => ⟨hc, fun _ hid => by cases hid⟩⟩
      · exact .update rfl hi
    · exact .refl _ rfl

/-! ## What a step does to one task -/

/-- Neither waiting for the directory nor for the derivation. -/
def ClientPhase.away (phase : ClientPhase) : Prop :=
  (∀ request cid generation, phase ≠ .authenticating request cid generation) ∧
    ∀ request cid generation found, phase ≠ .verifying request cid generation found

inductive TaskMove (b b' : Broker) (i : Fin mqttMaxConnections) : Prop
  | kept (h : b'.task i = b.task i)
  | away (h : (b'.task i).away)
  | captured (htask : b.task i = .serving) (request : ConnectRequest)
      (hsame : b'.invalidations = b.invalidations)
      (h : b'.task i = .authenticating request (b.clients i).connectionId b.invalidations.generation)
  | read (request : ConnectRequest) (cid generation : UInt64)
      (htask : b.task i = .authenticating request cid generation)
      (hrequest : authenticateRequest request (b.clients i).receivingInterface = true)
      (h : b'.task i = .verifying request cid generation
        (machineDirectoryFind b.directory request.username))

theorem ClientPhase.away_created : ClientPhase.created.away :=
  ⟨fun _ _ _ h => (by cases h), fun _ _ _ _ h => (by cases h)⟩

theorem ClientPhase.away_of_plain {phase : ClientPhase} (h : phase.plain = true) : phase.away := by
  refine ⟨fun _ _ _ heq => ?_, fun _ _ _ _ heq => ?_⟩
  · rw [heq] at h
    cases h
  · rw [heq] at h
    cases h

theorem taskMove_update {b b' : Broker} {i l : Fin mqttMaxConnections} {phase : ClientPhase}
    (htask : b'.task = Function.update b.task l phase) (h : phase.away) : TaskMove b b' i := by
  by_cases hi : i = l
  · subst hi
    refine .away ?_
    rw [htask, Function.update_self]
    exact h
  · refine .kept ?_
    rw [htask, Function.update_of_ne hi]

theorem taskMove {b b' : Broker} {act : BrokerAct} (hs : brokerStep b act b')
    (i : Fin mqttMaxConnections) : TaskMove b b' i := by
  cases brokerStep_move hs with
  | refuse => exact .kept rfl
  | alloc _ _ _ _ l => exact taskMove_update (l := l) rfl ClientPhase.away_created
  | goto _ l phase _ hphase =>
    exact taskMove_update (l := l) rfl (ClientPhase.away_of_plain hphase)
  | capture l request htask =>
    by_cases hi : i = l
    · subst hi
      exact .captured htask request rfl (Function.update_self _ _ _)
    · exact .kept (Function.update_of_ne hi _ _)
  | lookup l throttle request cid g htask hrequest =>
    by_cases hi : i = l
    · subst hi
      exact .read request cid g htask hrequest (Function.update_self _ _ _)
    · exact .kept (Function.update_of_ne hi _ _)
  | bound l _ _ cid => exact taskMove_update (l := l) rfl (ClientPhase.away_of_plain rfl)
  | abandon l => exact taskMove_update (l := l) rfl (ClientPhase.away_of_plain rfl)
  | close l => exact taskMove_update (l := l) rfl (ClientPhase.away_of_plain rfl)
  | commit => exact .kept rfl
  | fence identifier =>
    refine .kept ?_
    unfold Broker.fenceMachineAuthentication
    dsimp only
    split
    · rfl
    · rfl
  | claim => exact .kept rfl
  | release => exact .kept rfl

/-- The journal gets what is fenced. -/
theorem step_invalidations {b b' : Broker} {act : BrokerAct} (hs : brokerStep b act b') :
    b'.invalidations = b.invalidations.recordAll act.fenced.toList := by
  cases brokerStep_move hs with
  | fence identifier =>
    unfold Broker.fenceMachineAuthentication BrokerAct.fenced
    by_cases hvalid : identifierValid identifier = true
    · dsimp only
      rw [record_fst, if_pos hvalid, if_pos hvalid]
      rfl
    · dsimp only
      rw [record_fst, if_neg hvalid, if_neg hvalid]
      rfl
  | goto _ i phase hact =>
    rw [hact]
    rfl
  | _ => rfl

theorem fenced_valid {act : BrokerAct} {identifier : Bytes} (h : act.fenced = some identifier) :
    identifierValid identifier = true := by
  cases act with
  | fence id =>
    unfold BrokerAct.fenced at h
    dsimp only at h
    split at h
    · next hvalid =>
      cases h
      exact hvalid
    · cases h
  | _ => cases h

/-! ## The window of a CONNECT -/

/-- The fences of the moves, in order. -/
def fencedBy (ms : List (Move Broker BrokerAct)) : List Bytes := ms.filterMap fun n => n.ev.fenced

/-- The task of record `i` has captured `generation`; `mid` is the run since. -/
structure CapturedSince (i : Fin mqttMaxConnections) (generation : UInt64)
    (ms : List (Move Broker BrokerAct)) (journal : InvalidationJournal)
    (mid : List (Move Broker BrokerAct)) : Prop where
  split : ∃ l a, ms = l ++ a :: mid ∧ Captures i a ∧ a.post.invalidations.generation = generation ∧
    journal = a.post.invalidations.recordAll (fencedBy mid)
  only : ∀ n ∈ mid, ¬ Captures i n

theorem fencedBy_append (ms ns : List (Move Broker BrokerAct)) :
    fencedBy (ms ++ ns) = fencedBy ms ++ fencedBy ns :=
  List.filterMap_append

theorem fencedBy_singleton (v : Move Broker BrokerAct) : fencedBy [v] = v.ev.fenced.toList := by
  unfold fencedBy
  rw [List.filterMap_cons, List.filterMap_nil]
  cases v.ev.fenced with
  | none => rfl
  | some id => rfl

theorem mem_fencedBy {ms : List (Move Broker BrokerAct)} {identifier : Bytes} :
    identifier ∈ fencedBy ms ↔ ∃ n ∈ ms, n.ev.fenced = some identifier :=
  List.mem_filterMap

theorem fencedBy_valid {ms : List (Move Broker BrokerAct)} :
    ∀ identifier ∈ fencedBy ms, identifierValid identifier = true := by
  intro identifier h
  obtain ⟨n, -, hn⟩ := mem_fencedBy.mp h
  exact fenced_valid hn

theorem CapturedSince.append {i : Fin mqttMaxConnections} {generation : UInt64}
    {ms mid : List (Move Broker BrokerAct)} {v : Move Broker BrokerAct}
    (h : CapturedSince i generation ms v.pre.invalidations mid)
    (hs : brokerStep v.pre v.ev v.post) (hv : ¬ Captures i v) :
    CapturedSince i generation (ms ++ [v]) v.post.invalidations (mid ++ [v]) := by
  obtain ⟨⟨l, a, rfl, ha, hgen, hjournal⟩, honly⟩ := h
  refine ⟨⟨l, a, by simp, ha, hgen, ?_⟩, fun n hn => ?_⟩
  · rw [step_invalidations hs, fencedBy_append, fencedBy_singleton,
      InvalidationJournal.recordAll_append, hjournal]
  · rcases List.mem_append.mp hn with hn | hn
    · exact honly n hn
    · rw [List.mem_singleton.mp hn]
      exact hv

theorem not_captures {i : Fin mqttMaxConnections} {v : Move Broker BrokerAct}
    (h : v.pre.task i ≠ .serving) : ¬ Captures i v := fun hc => h hc.1

/-- A record that is handed out has a new task. -/
theorem opens_created {i : Fin mqttMaxConnections} {v : Move Broker BrokerAct}
    (hpool : PoolInv v.pre) (hs : brokerStep v.pre v.ev v.post) (h : Opens i v) :
    v.post.task i = .created := by
  obtain ⟨hpre, hpost⟩ := h
  cases clientMove hpool hs i with
  | kept hkept =>
    rw [hkept.inUse, hpre] at hpost
    cases hpost
  | opened _ _ htask => exact htask
  | freed hused =>
    rw [hused] at hpost
    cases hpost
  | bound _ _ _ _ _ _ _ hbound =>
    rw [hbound.inUse, hpre] at hpost
    cases hpost

/-- Fewer fences than a whole round of the generation between a capture and its bind. -/
def FencesWithinRound (ms : List (Move Broker BrokerAct)) : Prop :=
  ∀ l a mid v r i verified, ms = l ++ a :: (mid ++ v :: r) → Captures i a →
    (∀ n ∈ mid, ¬ Captures i n) → v.ev = .bind i verified → (fencedBy mid).length < 2 ^ 64 - 1

theorem FencesWithinRound.of_append {ms : List (Move Broker BrokerAct)}
    {v : Move Broker BrokerAct} (h : FencesWithinRound (ms ++ [v])) : FencesWithinRound ms :=
  fun l a mid w r i verified heq => h l a mid w (r ++ [v]) i verified (by rw [heq]; simp)

/-! ## What every step keeps -/

/-- After the run `ms`. -/
structure RevocationInv (ms : List (Move Broker BrokerAct)) (b : Broker) : Prop where
  authenticating : ∀ i request cid generation,
    b.task i = .authenticating request cid generation →
      ∃ mid, CapturedSince i generation ms b.invalidations mid
  verifying : ∀ i request cid generation found,
    b.task i = .verifying request cid generation found →
      (∃ mid, CapturedSince i generation ms b.invalidations mid ∧
        Since (ReadsDirectory i) (Opens i) mid) ∧
      request.clientId = request.username ∧ identifierValid request.username = true ∧
      ∀ record, found = some record → record.identifier.bytes = request.username
  sock : ∀ i, (b.clients i).inUse = true → 0 ≤ (b.clients i).sock
  connected : ∀ i, (b.clients i).connected = true →
    (b.clients i).clientId = (b.clients i).principal.identifier.bytes ∧
      identifierValid (b.clients i).principal.identifier.bytes = true
  one : ∀ i j, (b.clients i).connected = true → (b.clients j).connected = true →
    (b.clients i).clientId = (b.clients j).clientId → i = j
  admitted : FencesWithinRound ms → ∀ i, (b.clients i).connected = true →
    (b.clients i).securityInvalidated = false →
    Since (ReadsDirectory i) (fun n => Opens i n ∨
      n.ev.fenced = some (b.clients i).principal.identifier.bytes) ms

theorem RevocationInv.start (nextConnectionId : UInt64) (directory : List MachineEntry) :
    RevocationInv [] (.start nextConnectionId directory) where
  authenticating := fun _ _ _ _ h => by cases h
  verifying := fun _ _ _ _ _ h => by cases h
  sock := fun _ h => by cases h
  connected := fun _ h => by cases h
  one := fun _ _ h => by cases h
  admitted := fun _ _ h => by cases h

theorem machineDirectoryFind_identifier {directory : List MachineEntry} {identifier : Bytes}
    {record : MachineEntry} (h : machineDirectoryFind directory identifier = some record) :
    record.identifier.bytes = identifier := by
  have hfound := List.find?_some h
  exact of_decide_eq_true hfound

theorem authenticateRequest_spec {request : ConnectRequest} {receivingInterface : UInt8}
    (h : authenticateRequest request receivingInterface = true) :
    request.clientId = request.username ∧ identifierValid request.username = true := by
  unfold authenticateRequest at h
  simp only [Bool.and_eq_true] at h
  obtain ⟨⟨⟨⟨⟨⟨hpos, hle⟩, -⟩, -⟩, -⟩, -⟩, hid⟩ := h
  refine ⟨of_decide_eq_true hid, ?_⟩
  unfold identifierValid
  rw [Bool.and_eq_true]
  exact ⟨hpos, hle⟩

theorem authenticateRecord_some {found : Option MachineEntry} {verified : Bool}
    {receivingInterface : UInt8} {principal : Principal}
    (h : authenticateRecord found verified receivingInterface = some principal) :
    ∃ record, found = some record ∧ principal.identifier = record.identifier := by
  unfold authenticateRecord at h
  split at h
  · cases h
  · next record =>
    split_ifs at h
    cases h
    exact ⟨record, rfl, rfl⟩

theorem duplicateClientId_false {b : Broker} {i j : Fin mqttMaxConnections} {clientId : Bytes}
    (h : b.duplicateClientId i clientId = false) (hne : j ≠ i)
    (hused : (b.clients j).inUse = true) (hconn : (b.clients j).connected = true) :
    (b.clients j).clientId ≠ clientId := by
  intro hid
  unfold Broker.duplicateClientId at h
  rw [List.any_eq_false] at h
  refine h j (List.mem_finRange j) ?_
  simp [hne, hused, hconn, hid]

theorem admitted_spec {c : MqttClient} {expectedConnectionId : UInt64}
    (h : c.admitted expectedConnectionId = true) :
    c.inUse = true ∧ c.connected = true ∧ c.securityInvalidated = false := by
  unfold MqttClient.admitted at h
  simp only [Bool.and_eq_true, Bool.not_eq_true'] at h
  obtain ⟨⟨⟨hused, hconn⟩, hvalid⟩, -⟩ := h
  exact ⟨hused, hconn, hvalid⟩

/-- No other connected record has the client id of a CONNECT that is bound. -/
theorem BoundClient.clientId_ne {b b' : Broker} {i j : Fin mqttMaxConnections}
    {request : ConnectRequest} {cid generation : UInt64} {found : Option MachineEntry}
    {verified : Bool} {principal : Principal}
    (h : BoundClient b b' i request cid generation found verified principal) (hpool : PoolInv b)
    (hne : j ≠ i) (hconn : (b'.clients j).connected = true) :
    (b'.clients j).clientId ≠ (b'.clients i).clientId := by
  rw [h.others j hne] at hconn ⊢
  rw [h.clientId]
  obtain ⟨-, -, hduplicate, -⟩ := bindAllowed_spec h.allowed
  exact duplicateClientId_false hduplicate hne (hpool.inUse j hconn) hconn

/-- A CONNECT that is bound has read the directory after the last fence of its identifier. -/
theorem bound_reads {ms mid : List (Move Broker BrokerAct)} {b : Broker}
    {i : Fin mqttMaxConnections} {generation : UInt64} {identifier : Bytes}
    (hsince : b.invalidations.since identifier generation = false)
    (hwindow : CapturedSince i generation ms b.invalidations mid)
    (hread : Since (ReadsDirectory i) (Opens i) mid) (hround : (fencedBy mid).length < 2 ^ 64 - 1) :
    Since (ReadsDirectory i) (fun n => Opens i n ∨ n.ev.fenced = some identifier) ms := by
  obtain ⟨⟨l, a, rfl, -, hgen, hjournal⟩, -⟩ := hwindow
  rw [hjournal, ← hgen] at hsince
  have hnone : identifier ∉ fencedBy mid := since_false fencedBy_valid hround hsince
  rw [List.append_cons]
  refine Since.prepend (hread.mono fun n hn hN => ?_) _
  rcases hN with hopen | hfence
  · exact hopen
  · exact absurd (mem_fencedBy.mpr ⟨n, hn, hfence⟩) hnone

namespace RevocationInv

variable {ms : List (Move Broker BrokerAct)} {v : Move Broker BrokerAct}
  {i j : Fin mqttMaxConnections}

/-- A task that waits for the directory has captured its generation. -/
theorem step_authenticating (h : RevocationInv ms v.pre) (hs : brokerStep v.pre v.ev v.post)
    {request : ConnectRequest} {cid generation : UInt64}
    (htask : v.post.task i = .authenticating request cid generation) :
    ∃ mid, CapturedSince i generation (ms ++ [v]) v.post.invalidations mid := by
  cases taskMove hs i with
  | kept hkept =>
    have hpre := hkept.symm.trans htask
    obtain ⟨mid, hmid⟩ := h.authenticating i request cid generation hpre
    have hnot : ¬ Captures i v := not_captures (by rw [hpre]; simp)
    exact ⟨mid ++ [v], hmid.append hs hnot⟩
  | away haway => exact absurd htask (haway.1 _ _ _)
  | captured hserving request' hsame hnew =>
    rw [hnew] at htask
    cases htask
    have hcaptures : Captures i v := ⟨hserving, _, _, _, hnew⟩
    exact ⟨[], ⟨⟨ms, v, rfl, hcaptures, congrArg _ hsame, rfl⟩, by simp⟩⟩
  | read _ _ _ _ _ hnew =>
    rw [hnew] at htask
    cases htask

/-- A task that derives has read the directory for the identifier it was given. -/
theorem step_verifying (h : RevocationInv ms v.pre) (hpool : PoolInv v.pre)
    (hs : brokerStep v.pre v.ev v.post) {request : ConnectRequest} {cid generation : UInt64}
    {found : Option MachineEntry}
    (htask : v.post.task i = .verifying request cid generation found) :
    (∃ mid, CapturedSince i generation (ms ++ [v]) v.post.invalidations mid ∧
      Since (ReadsDirectory i) (Opens i) mid) ∧
      request.clientId = request.username ∧ identifierValid request.username = true ∧
      ∀ record, found = some record → record.identifier.bytes = request.username := by
  cases taskMove hs i with
  | kept hkept =>
    have hpre := hkept.symm.trans htask
    obtain ⟨⟨mid, hmid, hread⟩, hrest⟩ := h.verifying i request cid generation found hpre
    have hnot : ¬ Captures i v := not_captures (by rw [hpre]; simp)
    refine ⟨⟨mid ++ [v], hmid.append hs hnot, hread.append fun hopen => ?_⟩, hrest⟩
    rw [opens_created hpool hs hopen] at htask
    cases htask
  | away haway => exact absurd htask (haway.2 _ _ _ _)
  | captured _ _ _ hnew =>
    rw [hnew] at htask
    cases htask
  | read request' cid' g' hpre hrequest hnew =>
    rw [hnew] at htask
    cases htask
    obtain ⟨mid, hmid⟩ := h.authenticating i _ _ _ hpre
    obtain ⟨hclient, hvalid⟩ := authenticateRequest_spec hrequest
    have hnot : ¬ Captures i v := not_captures (by rw [hpre]; simp)
    have hreads : ReadsDirectory i v := ⟨⟨_, _, _, hpre⟩, _, _, _, _, hnew⟩
    refine ⟨⟨mid ++ [v], hmid.append hs hnot, .now hreads⟩, hclient, hvalid, ?_⟩
    intro record hfound
    exact machineDirectoryFind_identifier hfound

theorem step_sock (h : RevocationInv ms v.pre) (hpool : PoolInv v.pre)
    (hs : brokerStep v.pre v.ev v.post) (hused : (v.post.clients i).inUse = true) :
    0 ≤ (v.post.clients i).sock := by
  cases clientMove hpool hs i with
  | kept hkept =>
    rw [hkept.sock]
    exact h.sock i (hkept.inUse.symm.trans hused)
  | opened _ hsock => exact hsock
  | freed hfree =>
    rw [hfree] at hused
    cases hused
  | bound _ _ _ _ _ _ _ hbound =>
    rw [hbound.sock]
    exact h.sock i (hbound.inUse.symm.trans hused)

theorem step_connected (h : RevocationInv ms v.pre) (hpool : PoolInv v.pre)
    (hs : brokerStep v.pre v.ev v.post) (hconn : (v.post.clients i).connected = true) :
    (v.post.clients i).clientId = (v.post.clients i).principal.identifier.bytes ∧
      identifierValid (v.post.clients i).principal.identifier.bytes = true := by
  cases clientMove hpool hs i with
  | kept hkept =>
    rw [hkept.clientId, hkept.principal]
    exact h.connected i (hkept.connected.symm.trans hconn)
  | opened hno =>
    rw [hno] at hconn
    cases hconn
  | freed _ hno =>
    rw [hno] at hconn
    cases hconn
  | bound request cid g found verified principal _ hbound =>
    obtain ⟨-, hclient, hvalid, hrecord⟩ := h.verifying i request cid g found hbound.task
    obtain ⟨record, hfound, hprincipal⟩ := authenticateRecord_some hbound.record
    rw [hbound.clientId, hbound.principal_eq, hprincipal, hrecord record hfound]
    exact ⟨hclient, hvalid⟩

/-- The duplicate check of the bind keeps connected records apart. -/
theorem step_one (h : RevocationInv ms v.pre) (hpool : PoolInv v.pre)
    (hs : brokerStep v.pre v.ev v.post) (hi : (v.post.clients i).connected = true)
    (hj : (v.post.clients j).connected = true)
    (hid : (v.post.clients i).clientId = (v.post.clients j).clientId) : i = j := by
  by_contra hne
  cases clientMove hpool hs i with
  | bound _ _ _ _ _ _ _ hbound =>
    exact hbound.clientId_ne hpool (fun heq => hne heq.symm) hj hid.symm
  | kept hkept =>
    cases clientMove hpool hs j with
    | bound _ _ _ _ _ _ _ hbound => exact hbound.clientId_ne hpool hne hi hid
    | kept hkept' =>
      rw [hkept.clientId, hkept'.clientId] at hid
      exact hne (h.one i j (hkept.connected.symm.trans hi) (hkept'.connected.symm.trans hj) hid)
    | opened hno =>
      rw [hno] at hj
      cases hj
    | freed _ hno =>
      rw [hno] at hj
      cases hj
  | opened hno =>
    rw [hno] at hi
    cases hi
  | freed _ hno =>
    rw [hno] at hi
    cases hi

/-- A fence invalidates who is admitted; a bind is allowed after a fresh read only. -/
theorem step_admitted (h : RevocationInv ms v.pre) (hpool : PoolInv v.pre)
    (hs : brokerStep v.pre v.ev v.post) (hround : FencesWithinRound (ms ++ [v]))
    (hconn : (v.post.clients i).connected = true)
    (hvalid : (v.post.clients i).securityInvalidated = false) :
    Since (ReadsDirectory i) (fun n => Opens i n ∨
      n.ev.fenced = some (v.post.clients i).principal.identifier.bytes) (ms ++ [v]) := by
  cases clientMove hpool hs i with
  | kept hkept =>
    obtain ⟨hvalid', hfence⟩ := hkept.invalidated hvalid
    have hconn' := hkept.connected.symm.trans hconn
    have hused' := hpool.inUse i hconn'
    rw [hkept.principal]
    refine (h.admitted hround.of_append i hconn' hvalid').append ?_
    rintro (hopen | hfenced)
    · rw [hopen.1] at hused'
      cases hused'
    · -- a fence of its identifier would have invalidated it
      have hno := hfence _ hfenced
      unfold MqttClient.disconnectMatches at hno
      rw [hused', hconn', decide_eq_true (h.sock i hused'), decide_eq_true rfl] at hno
      cases hno
  | opened hno =>
    rw [hno] at hconn
    cases hconn
  | freed _ hno =>
    rw [hno] at hconn
    cases hconn
  | bound request cid g found verified principal hact hbound =>
    obtain ⟨⟨mid, hmid, hread⟩, -⟩ := h.verifying i request cid g found hbound.task
    obtain ⟨hused, -, -, hsince⟩ := bindAllowed_spec hbound.allowed
    have hlen : (fencedBy mid).length < 2 ^ 64 - 1 := by
      obtain ⟨⟨l, a, rfl, ha, -⟩, honly⟩ := hmid
      exact hround l a mid v [] i verified (by simp) ha honly hact
    rw [hbound.principal_eq]
    refine (bound_reads hsince hmid hread hlen).append ?_
    rintro (hopen | hfenced)
    · rw [hopen.1] at hused
      cases hused
    · rw [hact] at hfenced
      cases hfenced

theorem step (h : RevocationInv ms v.pre) (hpool : PoolInv v.pre)
    (hs : brokerStep v.pre v.ev v.post) : RevocationInv (ms ++ [v]) v.post where
  authenticating _ _ _ _ htask := h.step_authenticating hs htask
  verifying _ _ _ _ _ htask := h.step_verifying hpool hs htask
  sock _ hused := h.step_sock hpool hs hused
  connected _ hconn := h.step_connected hpool hs hconn
  one _ _ hi hj hid := h.step_one hpool hs hi hj hid
  admitted hround _ hconn hvalid := h.step_admitted hpool hs hround hconn hvalid

end RevocationInv

/-! ## Runs -/

theorem revocationInv_run {nextConnectionId : UInt64} {directory : List MachineEntry}
    {ms : List (Move Broker BrokerAct)}
    (h : IsRun brokerStep (Broker.start nextConnectionId directory) ms) :
    RevocationInv ms (final (Broker.start nextConnectionId directory) ms) := by
  have hboth := h.inv_past (I := fun b ms => PoolInv b ∧ RevocationInv ms b)
    ⟨.start nextConnectionId directory, .start nextConnectionId directory⟩ fun ns v hinv hs => by
      obtain ⟨hpool, hrevocation⟩ := hinv
      exact ⟨hpool.step hs, hrevocation.step hpool hs⟩
  exact hboth.2

/-- A fence is no read of the directory. -/
theorem not_readsDirectory {i : Fin mqttMaxConnections} {v : Move Broker BrokerAct}
    {identifier : Bytes} (hs : brokerStep v.pre v.ev v.post) (hact : v.ev = .fence identifier) :
    ¬ ReadsDirectory i v := by
  rintro ⟨⟨request, cid, g, hpre⟩, request', cid', g', found, hpost⟩
  rw [hact] at hs
  have hsame : v.post.task = v.pre.task := by
    rw [← show v.pre.fenceMachineAuthentication identifier = v.post from Option.some.inj hs]
    unfold Broker.fenceMachineAuthentication
    dsimp only
    split
    · rfl
    · rfl
  rw [hsame, hpre] at hpost
  cases hpost

/-- At the end of the run `ms`, who is admitted as an identifier that was fenced after a commit
has read the directory after the fence. -/
def RevocationHolds (start : Broker) (ms : List (Move Broker BrokerAct)) : Prop :=
  ∀ l c mid f r directory identifier, ms = l ++ c :: (mid ++ f :: r) →
    c.ev = .commit directory → f.ev = .fence identifier →
    ∀ i, ((final start ms).clients i).admitted ((final start ms).clients i).connectionId = true →
      ((final start ms).clients i).principal.identifier.bytes = identifier →
      Since (ReadsDirectory i) (Opens i) r

/-- One connected record for each identifier. -/
def OnePerIdentifier (b : Broker) : Prop :=
  ∀ i j, (b.clients i).connected = true → (b.clients j).connected = true →
    (b.clients i).principal.identifier = (b.clients j).principal.identifier → i = j

theorem revocation_wins {nextConnectionId : UInt64} {directory : List MachineEntry}
    {ms : List (Move Broker BrokerAct)}
    (h : IsRun brokerStep (Broker.start nextConnectionId directory) ms) :
    (FencesWithinRound ms → RevocationHolds (Broker.start nextConnectionId directory) ms) ∧
      OnePerIdentifier (final (Broker.start nextConnectionId directory) ms) := by
  have hinv := revocationInv_run h
  constructor
  · intro hround l c mid f r directory' identifier hsplit _ hfence i hadmitted hid
    obtain ⟨-, hconn, hvalid⟩ := admitted_spec hadmitted
    have hsince := hinv.admitted hround i hconn hvalid
    have hf : f.ev.fenced = some
        ((final (Broker.start nextConnectionId directory) ms).clients i).principal.identifier.bytes := by
      rw [hfence, ← hid]
      exact if_pos (hinv.connected i hconn).2
    have hnot : ¬ ReadsDirectory i f :=
      not_readsDirectory (h.step_of_mem f (by rw [hsplit]; simp)) hfence
    have hafter : ms = (l ++ c :: mid) ++ f :: r := by
      rw [hsplit, List.append_assoc, List.cons_append]
    generalize final (Broker.start nextConnectionId directory) ms = b at hsince hf
    rw [hafter] at hsince
    exact (hsince.after (.inr hf) hnot).mono fun _ _ hopen => .inl hopen
  · intro i j hi hj hid
    refine hinv.one i j hi hj ?_
    rw [(hinv.connected i hi).1, (hinv.connected j hj).1, hid]

theorem fencesWithinRound_of_length {ms : List (Move Broker BrokerAct)}
    (h : ms.length < 2 ^ 64 - 1) : FencesWithinRound ms := by
  rintro l a mid v r i verified rfl - - -
  have hle : (fencedBy mid).length ≤ mid.length := List.length_filterMap_le _ _
  rw [List.length_append, List.length_cons, List.length_append] at h
  omega

/-- The panel's CONNECT up to the derivation of its password; a fence of another machine
comes before it. -/
def panelWaits : List BrokerAct :=
  [.accept 54 1 machineInterfaceSoftap false, .taskCreated 0, .fence (txt "core-01"),
    .connect 0 panelConnect, .find 0 true]

/-- The panel's entry changes before its CONNECT is bound; the panel connects once more. -/
theorem revocation_wins_panel :
    let start := Broker.start 0 [panelEntry]
    let ms := brokerTrace start (panelWaits ++
      [.commit [{ panelEntry with clientType := machineClientServiceTool }],
        .fence (txt "hmi-01"), .bind 0 true, .close 0] ++ panelConnects 55 0)
    RevocationHolds start ms ∧ OnePerIdentifier (final start ms) ∧
      (final start ms).authenticatedCount = 1 := by
  intro start ms
  have hwins := revocation_wins (isRun_brokerTrace start _ : IsRun brokerStep start ms)
  exact ⟨hwins.1 (fencesWithinRound_of_length (by decide +kernel)), hwins.2, by decide +kernel⟩

/-! ## A whole round of fences -/

theorem fence_other {b : Broker} {identifier : Bytes} (hvalid : identifierValid identifier = true)
    (hother : ∀ i, (b.clients i).disconnectMatches identifier = false) :
    b.fenceMachineAuthentication identifier =
      { b with invalidations := (b.invalidations.record identifier).2 } := by
  unfold Broker.fenceMachineAuthentication
  dsimp only
  rw [record_fst, if_pos hvalid]
  simp only [hother, Bool.false_eq_true, if_false]

/-- Fences of identifiers that nobody is connected as only reach the journal. -/
theorem final_fences {b : Broker} {identifiers : List Bytes}
    (hvalid : ∀ id ∈ identifiers, identifierValid id = true)
    (hother : ∀ id ∈ identifiers, ∀ i, (b.clients i).disconnectMatches id = false) :
    final b (brokerTrace b (identifiers.map .fence)) =
      { b with invalidations := b.invalidations.recordAll identifiers } := by
  induction identifiers generalizing b with
  | nil => rfl
  | cons id ids ih =>
    show final (b.fenceMachineAuthentication id)
      (brokerTrace (b.fenceMachineAuthentication id) (ids.map .fence)) = _
    rw [fence_other (hvalid id List.mem_cons_self) (hother id List.mem_cons_self)]
    exact ih (fun id' hid => hvalid id' (List.mem_cons_of_mem _ hid))
      fun id' hid => hother id' (List.mem_cons_of_mem _ hid)

theorem next_bind {b : Broker} {i : Fin mqttMaxConnections} {verified : Bool}
    {request : ConnectRequest} {cid generation : UInt64} {found : Option MachineEntry}
    {principal : Principal} {k : Fin mqttMaxClients}
    (htask : b.task i = .verifying request cid generation found)
    (hrecord : authenticateRecord found verified (b.clients i).receivingInterface =
      some principal)
    (hallowed : bindAllowed b.invalidations (b.clients i) cid principal.identifier.bytes generation
      (b.duplicateClientId i request.clientId) = true) (hclaim : b.sessionClaim i = some k) :
    b.next (.bind i verified) = some (b.connectClient i request cid principal k) := by
  unfold Broker.next
  dsimp only
  rw [htask]
  dsimp only
  rw [hrecord]
  dsimp only
  unfold Broker.bindClient
  rw [if_pos hallowed, hclaim]

def panelWaiting : Broker :=
  final (.start 0 [panelEntry]) (brokerTrace (.start 0 [panelEntry]) panelWaits)

/-- The panel's record is removed and the panel fenced. -/
def panelRevoked : Broker :=
  ({ panelWaiting with directory := [] }).fenceMachineAuthentication (txt "hmi-01")

/-- `n` fences of another machine later. -/
def panelOverrun (n : Nat) : Broker :=
  { panelRevoked with
    invalidations := panelRevoked.invalidations.recordAll (.replicate n (txt "core-01")) }

def panelReadmitted (n : Nat) : Broker :=
  (panelOverrun n).connectClient 0 panelConnect 1 (principalFromRecord panelEntry) 0

def otherFences (n : Nat) : List (Move Broker BrokerAct) :=
  brokerTrace panelRevoked ((List.replicate n (txt "core-01")).map .fence)

theorem final_otherFences (n : Nat) : final panelRevoked (otherFences n) = panelOverrun n := by
  refine final_fences (fun id hid => ?_) fun id hid => ?_
  · rw [List.eq_of_mem_replicate hid]
    decide
  · rw [List.eq_of_mem_replicate hid]
    decide +kernel

/-- With the captured generation back, the panel is bound. -/
theorem panelOverrun_bind {n : Nat} (hn : (panelOverrun n).invalidations.generation = 1) :
    (panelOverrun n).next (.bind 0 true) = some (panelReadmitted n) := by
  have htask : panelRevoked.task 0 = .verifying panelConnect 1 1 (some panelEntry) := by
    decide +kernel
  have hrecord : authenticateRecord (some panelEntry) true
      (panelRevoked.clients 0).receivingInterface = some (principalFromRecord panelEntry) := by
    decide +kernel
  have hallowed : ((panelRevoked.clients 0).inUse && !(panelRevoked.clients 0).connected &&
      !(panelRevoked.clients 0).securityInvalidated && (panelRevoked.clients 0).connectionId = 1 &&
      !panelRevoked.duplicateClientId 0 panelConnect.clientId && !false) = true := by
    decide +kernel
  have hclaim : panelRevoked.sessionClaim 0 = some 0 := by
    decide +kernel
  have hsince : (panelOverrun n).invalidations.since (txt "hmi-01") 1 = false := by
    unfold since
    rw [if_neg (by decide), if_pos hn]
  refine next_bind htask hrecord ?_ hclaim
  unfold bindAllowed
  rw [show (principalFromRecord panelEntry).identifier.bytes = txt "hmi-01" from rfl, hsince]
  exact hallowed

/-- The moves after the panel is fenced. -/
def movesAfterFence (n : Nat) : List (Move Broker BrokerAct) :=
  otherFences n ++ [⟨panelOverrun n, .bind 0 true, panelReadmitted n⟩]

/-- The whole run: the commit, the fence and what follows. -/
def overrunMoves (n : Nat) : List (Move Broker BrokerAct) :=
  brokerTrace (.start 0 [panelEntry]) panelWaits ++
    ⟨panelWaiting, .commit [], { panelWaiting with directory := [] }⟩ ::
      ([] ++ ⟨{ panelWaiting with directory := [] }, .fence (txt "hmi-01"), panelRevoked⟩ ::
        movesAfterFence n)

theorem isRun_overrunMoves {n : Nat} (hn : (panelOverrun n).invalidations.generation = 1) :
    IsRun brokerStep (.start 0 [panelEntry]) (overrunMoves n) := by
  refine (isRun_append _ _ _).mpr ⟨isRun_brokerTrace _ _, rfl, rfl, rfl, rfl, ?_⟩
  refine (isRun_append _ _ _).mpr ⟨isRun_brokerTrace _ _, ?_⟩
  show IsRun brokerStep (final panelRevoked (otherFences n)) _
  rw [final_otherFences]
  exact ⟨rfl, panelOverrun_bind hn, trivial⟩

theorem final_overrunMoves (n : Nat) :
    final (.start 0 [panelEntry]) (overrunMoves n) = panelReadmitted n := by
  unfold overrunMoves movesAfterFence
  rw [final_append, final_cons, List.nil_append, final_cons, final_append]
  rfl

theorem movesAfterFence_reads {n : Nat} {v : Move Broker BrokerAct} (hv : v ∈ movesAfterFence n)
    (hs : brokerStep v.pre v.ev v.post) : ¬ ReadsDirectory 0 v := by
  rcases List.mem_append.mp hv with hv | hv
  · obtain ⟨id, -, hact⟩ := List.mem_map.mp (ev_mem_of_traceWhile hv)
    exact not_readsDirectory hs hact.symm
  · rw [List.mem_singleton.mp hv]
    rintro ⟨-, request, cid, g, found, hpost⟩
    cases hpost

theorem overrun_admits {n : Nat} (hn : (panelOverrun n).invalidations.generation = 1) :
    ¬ RevocationHolds (.start 0 [panelEntry]) (overrunMoves n) := by
  intro h
  have hsince := h _ _ [] _ (movesAfterFence n) [] (txt "hmi-01") rfl rfl rfl 0
  rw [final_overrunMoves] at hsince
  obtain ⟨l, m, r, heq, hread, -⟩ := hsince rfl rfl
  have hmem : m ∈ movesAfterFence n := by
    rw [heq]
    simp
  have hrun := (isRun_overrunMoves hn).step_of_mem m
  refine movesAfterFence_reads hmem (hrun ?_) hread
  refine List.mem_append_right _ (List.mem_cons_of_mem _ ?_)
  exact List.mem_cons_of_mem _ hmem

/-- **Not every run**: after 2⁶⁴ - 2 more fences the generation is the captured one. -/
theorem revocation_overrun : ¬ ∀ ms, IsRun brokerStep (Broker.start 0 [panelEntry]) ms →
    RevocationHolds (Broker.start 0 [panelEntry]) ms ∧
      OnePerIdentifier (final (Broker.start 0 [panelEntry]) ms) := by
  intro hall
  have hvalid : ∀ id ∈ List.replicate (2 ^ 64 - 2) (txt "core-01"), identifierValid id = true := by
    intro id hid
    rw [List.eq_of_mem_replicate hid]
    decide
  have hgen := recordAll_generation panelRevoked.invalidations hvalid
  have htwo : panelRevoked.invalidations.generation.toNat = 2 := by decide +kernel
  rw [List.length_replicate, htwo, Epoch.iterate_eq (by decide) (by decide)] at hgen
  have hone : (panelOverrun (2 ^ 64 - 2)).invalidations.generation = 1 :=
    UInt64.toNat_inj.mp (hgen.trans (by decide))
  exact overrun_admits hone (hall _ (isRun_overrunMoves hone)).1

end Argus
