import ArgusPump.WifiTransaction

/-!
# The network manager's station events

`net_mgr_task` of `main/argus_net_mgr.c`: what the station events and the two requests make of
the station state, the timer generations and the Wi-Fi transaction.

The other events of the task, and what other tasks do under the network lock, act on these
records through four writes, each an event here: `set_net_mode`, a mode written directly, the
cancellation of `argus_net_cancel_recovery_for_service`, and a station state set to DISABLED.
The Wi-Fi driver may change its three flags between any two events.

    a failure event that leaves the station to be reconnected leaves no transaction active
      ↔ no IP timeout is processed while one is                  (failures_end_iff)

`classify` is `argus_net_classify_disconnect` over the driver's reason codes.  Left out: the
error and reason fields that are only shown, log lines, the authority granted with an address.
-/

namespace Argus

open Interact

/-- `ESP_ERR_WIFI_CONN`. -/
def espErrWifiConn : EspErr := 0x3007

/-- `argus_disconnect_category_t`. -/
inductive DisconnectCategory
  | none | authentication | apUnavailable | ipTimeout | unknown
deriving DecidableEq

/-- `argus_sta_lifecycle_event_t`. -/
inductive StaLifecycleEvent
  | associated | ipAcquired | disconnected | ipTimeout | stopped
deriving DecidableEq

/-- `argus_sta_event_action_t`. -/
inductive StaEventAction
  | ignore | process | confirmDisabled
deriving DecidableEq

/-- The statics of the network manager. -/
structure NetMgr (κ : Type) where
  netMode : NetworkMode
  staState : StaState
  txn : WifiTxn κ
  timerGeneration : UInt32
  activeTransactionGeneration : UInt32
  autoRetryTimerGeneration : UInt32
  ipTimeoutTimerGeneration : UInt32
  staStarted : Bool
  staConnected : Bool
  staIpAcquired : Bool
  lastDisconnectCategory : DisconnectCategory
  consecutiveFailures : UInt32
  authFailures : UInt32

/-! ## The pure helpers -/

/-- `argus_net_evaluate_retry`. -/
def netEvaluateRetry (cat : DisconnectCategory) (authFailures : UInt32) : StaState :=
  if cat = .authentication ∧ authFailures ≥ 3 then .actionRequired else .retryWait

/-- `argus_net_can_manual_reconnect`. -/
def netCanManualReconnect (netMode : NetworkMode) (staState : StaState)
    (hasValidCommissionedConfig : Bool) : Bool :=
  if ¬ hasValidCommissionedConfig ∨
      (netMode ≠ .commissionedSta ∧ netMode ≠ .apDiscoverable ∧ netMode ≠ .networkFault) then false
  else staState = .actionRequired ∨ staState = .retryWait ∨ staState = .idle

/-- The modes the station works in. -/
def NetworkMode.operational (mode : NetworkMode) : Prop :=
  mode = .uncommissionedAp ∨ mode = .commissionedSta ∨ mode = .apDiscoverable ∨ mode = .networkFault

instance (mode : NetworkMode) : Decidable mode.operational :=
  inferInstanceAs (Decidable (_ ∨ _ ∨ _ ∨ _))

/-- The modes the station is kept off in. -/
def NetworkMode.service (mode : NetworkMode) : Prop :=
  mode = .serviceTransition ∨ mode = .serviceApOnly ∨ mode = .securityRecoveryTransition ∨
    mode = .securityRecoveryApOnly

instance (mode : NetworkMode) : Decidable mode.service :=
  inferInstanceAs (Decidable (_ ∨ _ ∨ _ ∨ _))

/-- `argus_net_decide_sta_event`. -/
def netDecideStaEvent (mode : NetworkMode) (event : StaLifecycleEvent)
    (eventGeneration activeTransactionGeneration : UInt32)
    (staStarted staConnected staIpAcquired : Bool) : StaEventAction :=
  if mode = .serviceApOnly ∨ mode = .securityRecoveryApOnly then
    if event = .disconnected ∨ event = .stopped then .confirmDisabled else .ignore
  else if mode = .serviceTransition ∨ mode = .securityRecoveryTransition ∨ mode = .bootstrap then
    .ignore
  else if ¬ mode.operational then .ignore
  else if eventGeneration ≠ activeTransactionGeneration ∧
      (eventGeneration ≠ 0 ∨ activeTransactionGeneration ≠ 0) then .ignore
  else
    match event with
    | .associated => if staStarted ∧ staConnected then .process else .ignore
    | .ipAcquired => if staStarted ∧ staConnected ∧ staIpAcquired then .process else .ignore
    | .disconnected => if staStarted ∧ ¬ staConnected ∧ ¬ staIpAcquired then .process else .ignore
    | .ipTimeout => if staStarted ∧ ¬ staIpAcquired then .process else .ignore
    | .stopped => if ¬ staStarted ∧ ¬ staConnected ∧ ¬ staIpAcquired then .process else .ignore

namespace NetMgr

variable {κ : Type}

/-- The flags after `argus_net_apply_sta_event_action`. -/
def clearStaFlags (s : NetMgr κ) (event : StaLifecycleEvent) (action : StaEventAction) : NetMgr κ :=
  if s.netMode.service ∧ action ≠ .process then
    { s with staStarted := false, staConnected := false, staIpAcquired := false }
  else if action = .process ∧ event = .stopped then
    { s with staStarted := false, staConnected := false, staIpAcquired := false }
  else if action = .process ∧ (event = .disconnected ∨ event = .ipTimeout) then
    { s with staConnected := false, staIpAcquired := false }
  else s

/-- `apply_sta_event_action_locked`, with `argus_net_apply_sta_event_action` in it. -/
def applyStaEventAction (s : NetMgr κ) (event : StaLifecycleEvent) (action : StaEventAction) :
    NetMgr κ :=
  if (s.netMode = .serviceApOnly ∨ s.netMode = .securityRecoveryApOnly) ∧
      action = .confirmDisabled then { s.clearStaFlags event action with staState := .disabled }
  else s.clearStaFlags event action

/-- `argus_net_decide_sta_event`, on the manager's own state. -/
def decide (s : NetMgr κ) (event : StaLifecycleEvent) (eventGeneration active : UInt32) :
    StaEventAction :=
  netDecideStaEvent s.netMode event eventGeneration active s.staStarted s.staConnected
    s.staIpAcquired

variable [Zero κ]

/-- `set_net_mode`. -/
def setNetMode (s : NetMgr κ) (newMode : NetworkMode) : NetMgr κ :=
  if s.netMode = newMode then s
  else if newMode.service then
    { s with
      netMode := newMode
      timerGeneration := s.timerGeneration + 1
      activeTransactionGeneration := 0
      txn := s.txn.cancel }
  else { s with netMode := newMode }

/-- `argus_net_cancel_recovery_for_service`, and what a failure of it is recorded as. -/
def cancelRecovery (s : NetMgr κ) (timersStopped : Bool) : NetMgr κ :=
  let s := { s with
    timerGeneration := s.timerGeneration + 1
    activeTransactionGeneration := 0
    autoRetryTimerGeneration := 0
    ipTimeoutTimerGeneration := 0
    txn := s.txn.cancel }
  if timersStopped then s else { s with staState := .actionRequired }

/-- A transaction is begun under the next generation, for a request that was not refused. -/
def beginTransaction (s : NetMgr κ) (kind : WifiTxnKind) : WifiProg κ (NetMgr κ) := do
  let generation := s.timerGeneration + 1
  let out ← s.txn.begin generation kind s.netMode s.staState s.staConnected true
  return { s with
    timerGeneration := generation
    activeTransactionGeneration := if out.err ≠ espOk then 0 else generation
    txn := out.txn
    staState := out.sta }

/-- `ARGUS_NET_EVT_MANUAL_RECONNECT_REQUEST`. -/
def manualReconnectRequest (s : NetMgr κ) (hasValidCommissionedConfig : Bool) :
    WifiProg κ (NetMgr κ) :=
  if netCanManualReconnect s.netMode s.staState hasValidCommissionedConfig then
    if s.txn.active then .ret s else s.beginTransaction .manualReconnect
  else .ret s

/-- `ARGUS_NET_EVT_APPLY_WIFI_CONFIG`. -/
def applyWifiConfig (s : NetMgr κ) : WifiProg κ (NetMgr κ) :=
  if s.txn.active then .ret s else s.beginTransaction .applyConfig

/-- `ARGUS_NET_EVT_AUTO_RECONNECT_WAKEUP`; `connectOk` is what `esp_wifi_connect` says. -/
def autoReconnectWakeup (s : NetMgr κ) (timerGeneration : UInt32) (connectOk : Bool) : NetMgr κ :=
  if timerGeneration ≠ s.timerGeneration then s
  else if s.staState = .retryWait then
    if connectOk then { s with staState := .connecting } else { s with staState := .idle }
  else s

/-- `ARGUS_NET_EVT_STA_ASSOCIATED`; `timerStarted` is what starting the IP timeout says. -/
def staAssociated (s : NetMgr κ) (transactionGeneration : UInt32) (timerStarted : Bool) : NetMgr κ :=
  let action := s.decide .associated transactionGeneration s.activeTransactionGeneration
  if action = .process then
    { s with
      staState := if timerStarted then .associatedWaitingIp else .idle
      ipTimeoutTimerGeneration := s.timerGeneration }
  else s.applyStaEventAction .associated action

/-- `ARGUS_NET_EVT_STA_CONNECTED`: the station has an address. -/
def staGotIp (s : NetMgr κ) (transactionGeneration : UInt32) : NetMgr κ :=
  let action := s.decide .ipAcquired transactionGeneration s.activeTransactionGeneration
  if action ≠ .process then s.applyStaEventAction .ipAcquired action
  else
    let out := s.txn.handleGotIp transactionGeneration s.staState
    let s := { s with
      timerGeneration := s.timerGeneration + 1
      activeTransactionGeneration := if out.taken then 0 else s.activeTransactionGeneration
      txn := if ¬ out.taken ∧ ¬ out.txn.active ∧ out.txn.state = .failed then WifiTxn.init
        else out.txn
      staState := .connected
      consecutiveFailures := 0
      authFailures := 0
      lastDisconnectCategory := .none }
    if s.netMode = .networkFault ∨ s.netMode = .uncommissionedAp then s.setNetMode .apDiscoverable
    else s

/-- The verdict of `argus_net_evaluate_retry`, and the retry timer with it. -/
def scheduleRetry (s : NetMgr κ) (retryStarted : Bool) : NetMgr κ :=
  if netEvaluateRetry s.lastDisconnectCategory s.authFailures = .actionRequired then
    { s with staState := .actionRequired }
  else
    { s with
      staState := if retryStarted then netEvaluateRetry s.lastDisconnectCategory s.authFailures
        else .idle
      timerGeneration := s.timerGeneration + 1
      autoRetryTimerGeneration := s.timerGeneration + 1 }

/-- The station's failure, once no transaction has anything to do with it any more. -/
def recordFailure (classify : UInt8 → DisconnectCategory) (s : NetMgr κ) (disconnectReason : UInt8)
    (timerGeneration : UInt32) (retryStarted : Bool) : NetMgr κ :=
  if s.netMode.operational then
    if disconnectReason = 0 ∧ timerGeneration ≠ s.timerGeneration then s
    else
      let category : DisconnectCategory :=
        if disconnectReason = 0 then .ipTimeout else classify disconnectReason
      let counted : NetMgr κ := { s with
        lastDisconnectCategory := category
        consecutiveFailures := s.consecutiveFailures + 1
        authFailures := if category = .authentication then s.authFailures + 1 else 0 }
      counted.scheduleRetry retryStarted
  else { s with staState := .idle }

/-- The decision on an `ARGUS_NET_EVT_STA_DISCONNECTED`: reason `0` is the IP timeout. -/
def disconnectAction (s : NetMgr κ) (disconnectReason : UInt8)
    (timerGeneration transactionGeneration : UInt32) : StaEventAction :=
  if disconnectReason = 0 then s.decide .ipTimeout timerGeneration s.timerGeneration
  else s.decide .disconnected transactionGeneration s.activeTransactionGeneration

/-- `ARGUS_NET_EVT_STA_DISCONNECTED`; `retryStarted` is what starting the retry timer says. -/
def staDisconnected (classify : UInt8 → DisconnectCategory) (s : NetMgr κ) (disconnectReason : UInt8)
    (timerGeneration transactionGeneration : UInt32) (retryStarted : Bool) : WifiProg κ (NetMgr κ) :=
  let action := s.disconnectAction disconnectReason timerGeneration transactionGeneration
  if action ≠ .process then
    .ret (s.applyStaEventAction (if disconnectReason = 0 then .ipTimeout else .disconnected) action)
  else if disconnectReason = 0 then
    .ret (s.recordFailure classify disconnectReason timerGeneration retryStarted)
  else do
    let out ← s.txn.handleDisconnect transactionGeneration s.staState
    if out.taken then
      return { s with
        txn := out.txn
        staState := out.sta
        activeTransactionGeneration := if out.err ≠ espOk then 0 else s.activeTransactionGeneration }
    else
      let failed := out.txn.handleConnectionFailure transactionGeneration espErrWifiConn out.sta
      return { s with
        txn := failed.txn
        staState := failed.sta
        activeTransactionGeneration := if failed.taken then 0 else s.activeTransactionGeneration
        }.recordFailure classify disconnectReason timerGeneration retryStarted

/-- `ARGUS_NET_EVT_STA_STOPPED`. -/
def staStopped (s : NetMgr κ) (transactionGeneration : UInt32) : NetMgr κ :=
  let action := s.decide .stopped transactionGeneration s.activeTransactionGeneration
  if action = .confirmDisabled then s.applyStaEventAction .stopped action
  else if action = .process then { s with staState := .disabled }.setNetMode .networkFault
  else s

end NetMgr

/-! ## Runs -/

/-- What the task processes, the answers of timers and driver with it; then the four writes of
the other events and tasks, and the driver's own. -/
inductive NetEvent
  | manualReconnectRequest (hasValidCommissionedConfig : Bool)
  | applyWifiConfig
  | autoReconnectWakeup (timerGeneration : UInt32) (connectOk : Bool)
  | staAssociated (transactionGeneration : UInt32) (timerStarted : Bool)
  | staGotIp (transactionGeneration : UInt32)
  | staDisconnected (disconnectReason : UInt8) (timerGeneration transactionGeneration : UInt32)
      (retryStarted : Bool)
  | staStopped (transactionGeneration : UInt32)
  | setNetMode (newMode : NetworkMode)
  | writeNetMode (newMode : NetworkMode)
  | cancelRecovery (timersStopped : Bool)
  | disableSta
  | driver (staStarted staConnected staIpAcquired : Bool)
deriving DecidableEq

section Runs

variable {κ : Type} [Zero κ] (classify : UInt8 → DisconnectCategory)

def NetEvent.prog (ev : NetEvent) (s : NetMgr κ) : WifiProg κ (NetMgr κ) :=
  match ev with
  | .manualReconnectRequest hasConfig => s.manualReconnectRequest hasConfig
  | .applyWifiConfig => s.applyWifiConfig
  | .autoReconnectWakeup timerGeneration connectOk =>
    .ret (s.autoReconnectWakeup timerGeneration connectOk)
  | .staAssociated transactionGeneration timerStarted =>
    .ret (s.staAssociated transactionGeneration timerStarted)
  | .staGotIp transactionGeneration => .ret (s.staGotIp transactionGeneration)
  | .staDisconnected reason timerGeneration transactionGeneration retryStarted =>
    s.staDisconnected classify reason timerGeneration transactionGeneration retryStarted
  | .staStopped transactionGeneration => .ret (s.staStopped transactionGeneration)
  | .setNetMode newMode => .ret (s.setNetMode newMode)
  | .writeNetMode newMode => .ret { s with netMode := newMode }
  | .cancelRecovery timersStopped => .ret (s.cancelRecovery timersStopped)
  | .disableSta => .ret { s with staState := .disabled }
  | .driver staStarted staConnected staIpAcquired =>
    .ret { s with staStarted, staConnected, staIpAcquired }

abbrev NetMove (κ : Type) := Move (NetMgr κ) NetEvent

def netStep (s : NetMgr κ) (ev : NetEvent) (s' : NetMgr κ) : Prop :=
  ∃ calls, Prog.Runs (fun _ _ => True) (ev.prog classify s) calls s'

/-- After `argus_net_mgr_init`: no transaction yet. -/
structure NetMgr.Booted (s : NetMgr κ) : Prop where
  txn : s.txn = WifiTxn.init
  active : s.activeTransactionGeneration = 0

end Runs

/-! ## What is promised -/

section Promise

variable {κ : Type}

/-- The event is a station failure that the task processes. -/
def NetEvent.fails (ev : NetEvent) (s : NetMgr κ) : Prop :=
  match ev with
  | .staDisconnected reason timerGeneration transactionGeneration _ =>
    s.disconnectAction reason timerGeneration transactionGeneration = .process
  | _ => False

/-- The event is an IP timeout that the task processes. -/
def NetEvent.timesOut (ev : NetEvent) (s : NetMgr κ) : Prop :=
  match ev with
  | .staDisconnected reason timerGeneration transactionGeneration _ =>
    reason = 0 ∧ s.disconnectAction reason timerGeneration transactionGeneration = .process
  | _ => False

instance (ev : NetEvent) (s : NetMgr κ) : Decidable (ev.timesOut s) :=
  match ev with
  | .staDisconnected _ _ _ _ => inferInstanceAs (Decidable (_ ∧ _))
  | .manualReconnectRequest _ | .applyWifiConfig | .autoReconnectWakeup _ _ | .staAssociated _ _
  | .staGotIp _ | .staStopped _ | .setNetMode _ | .writeNetMode _ | .cancelRecovery _
  | .disableSta | .driver _ _ _ => inferInstanceAs (Decidable False)

/-- The station waits to be reconnected. -/
def StaState.failed (sta : StaState) : Prop :=
  sta = .retryWait ∨ sta = .actionRequired ∨ sta = .idle

/-- A request that the rules permit and that finds a transaction in its way. -/
def NetEvent.refused (ev : NetEvent) (s : NetMgr κ) : Prop :=
  s.txn.active = true ∧
    match ev with
    | .manualReconnectRequest hasConfig =>
      netCanManualReconnect s.netMode s.staState hasConfig = true
    | .applyWifiConfig => True
    | _ => False

/-- Failure events end the transaction: none is active after one that leaves the station to be
reconnected, and one that refuses a request has begun after every such failure. -/
structure FailuresEnd (ms : List (NetMove κ)) : Prop where
  ended : ∀ m ∈ ms, m.ev.fails m.pre → m.post.staState.failed → m.post.txn.active = false
  requests : ∀ l v mid m r, ms = l ++ v :: mid ++ m :: r → v.ev.fails v.pre →
    v.post.staState.failed → m.ev.refused m.pre →
    ∃ n ∈ mid, n.pre.txn.active = false ∧ n.post.txn.active = true

/-- No IP timeout is processed while a transaction is active. -/
def TimeoutsFindNone (ms : List (NetMove κ)) : Prop :=
  ∀ m ∈ ms, m.ev.timesOut m.pre → m.pre.txn.active = false

instance (ms : List (NetMove κ)) : Decidable (TimeoutsFindNone ms) :=
  inferInstanceAs (Decidable (∀ m ∈ ms, m.ev.timesOut m.pre → m.pre.txn.active = false))

end Promise

/-! ## The transaction's generation -/

section Generation

variable {κ : Type} [Zero κ] {txn : WifiTxn κ} {sta : StaState}

/-- A transaction under way carries its generation on; one that failed is over. -/
structure WifiGoesOn (generation : UInt32) (out : WifiOut κ) : Prop where
  consistent : out.txn.Consistent
  ok : out.err = espOk → out.txn.generation = generation
  failed : out.err ≠ espOk → out.txn.active = false

namespace WifiTxn

open Prog

theorem goesOn_of_finishError (txn : WifiTxn κ) {err : EspErr} (sta : StaState) (taken : Bool)
    (he : err ≠ espOk) (generation : UInt32) :
    WifiGoesOn generation ⟨err, txn.finishError err, sta, taken⟩ :=
  ⟨finishError_consistent txn err, fun h => absurd h he, fun _ => rfl⟩

theorem connectScrubbed_goesOn {generation : UInt32} (hact : txn.active = true)
    (hint : txn.intentionalDisconnectRequested = false) (hgen : txn.generation = generation) :
    txn.connectScrubbed.wp (fun _ _ => True) (fun _ => True) fun out =>
      WifiGoesOn generation out ∧ (out.err = espOk → out.sta = .connecting) := by
  refine ⟨trivial, fun err _ => ?_⟩
  change wp _ _ _ (ite _ _ _)
  by_cases he : err = espOk
  · rw [if_neg (not_not.mpr he)]
    refine ⟨⟨?_, fun _ => hgen, fun h => absurd rfl h⟩, fun _ => rfl⟩
    constructor <;> simp [scrubConfig, hact, hint]
  · rw [if_pos he]
    exact ⟨goesOn_of_finishError _ _ _ he _, fun h => absurd h he⟩

theorem connect_goesOn (hact : txn.active = true)
    (hint : txn.intentionalDisconnectRequested = false) :
    (txn.connect sta).wp (fun _ _ => True) (fun _ => True) fun out =>
      WifiGoesOn txn.generation out ∧ (out.err = espOk → out.sta = .connecting) := by
  unfold connect
  split
  · refine ⟨trivial, fun err _ => ?_⟩
    change wp _ _ _ (ite _ _ _)
    by_cases he : err = espOk
    · rw [if_neg (not_not.mpr he)]
      exact connectScrubbed_goesOn hact hint rfl
    · rw [if_pos he]
      exact ⟨goesOn_of_finishError _ _ _ he _, fun h => absurd h he⟩
  · exact connectScrubbed_goesOn hact hint rfl

/-- How preparing ends, for the generation's sake. -/
structure Readied (generation : UInt32) (a : EspErr × WifiTxn κ) : Prop where
  ok : a.1 = espOk → a.2.active = true ∧ a.2.intentionalDisconnectRequested = false ∧
    a.2.generation = generation
  failed : a.1 ≠ espOk → ∃ txn, a.2 = finishError txn a.1

theorem attempt_readied {generation : UInt32} {q : WifiOp κ} (result : q.Answer → EspErr)
    (failing : q.Answer → WifiTxn κ) {k : q.Answer → WifiProg κ (EspErr × WifiTxn κ)}
    (hk : ∀ r, result r = espOk →
      (k r).wp (fun _ _ => True) (fun _ => True) (Readied generation)) :
    (Prog.ask q fun r => if result r ≠ espOk then .ret (result r, (failing r).finishError (result r))
      else k r).wp (fun _ _ => True) (fun _ => True) (Readied generation) := by
  refine ⟨trivial, fun r _ => ?_⟩
  change wp _ _ _ (ite _ _ _)
  by_cases he : result r = espOk
  · rw [if_neg (not_not.mpr he)]
    exact hk r he
  · rw [if_pos he]
    exact ⟨fun h => absurd h he, fun _ => ⟨_, rfl⟩⟩

theorem prepareOps_readied (hact : txn.active = true)
    (hint : txn.intentionalDisconnectRequested = false) :
    txn.prepareOps.wp (fun _ _ => True) (fun _ => True) (Readied txn.generation) := by
  refine attempt_readied (q := .stopTimers) id (fun _ => txn) fun timers _ => ?_
  refine attempt_readied (q := .revokeSupervisory) id (fun _ => txn) fun revoked _ => ?_
  refine attempt_readied (q := .stopBroker) id (fun _ => _) fun stopped _ => ?_
  refine attempt_readied (q := .verifyBrokerStopped) id (fun _ => _) fun verified _ => ?_
  refine attempt_readied (q := .loadConfig) (·.1) (fun _ => _) fun loaded _ => ?_
  refine attempt_readied (q := .validateConfig loaded.2.1 loaded.2.2) id (fun _ => _)
    fun valid _ => ?_
  exact ⟨fun _ => ⟨hact, hint, rfl⟩, fun h => absurd rfl h⟩

/-- Beginning where no transaction is active. -/
theorem begin_goesOn {generation : UInt32} {kind : WifiTxnKind} {netMode : NetworkMode}
    {staConnected complete : Bool} (hc : txn.Consistent) (hact : txn.active = false) :
    (txn.begin generation kind netMode sta staConnected complete).wp (fun _ _ => True)
      (fun _ => True) fun out =>
        WifiGoesOn generation out ∧ (out.err = espOk → generation ≠ 0) := by
  unfold begin
  by_cases hv : txn.validateInputs netMode complete = espOk
  swap
  · rw [prepare, if_pos hv]
    change wp _ _ _ (ite _ _ _)
    rw [if_pos hv]
    exact ⟨⟨hc, fun h => absurd h hv, fun _ => hact⟩, fun h => absurd h hv⟩
  by_cases hg : generation = 0
  · rw [prepare, if_neg (not_not.mpr hv), if_pos hg]
    have hbad : espErrInvalidArg ≠ espOk := by decide
    exact ⟨⟨hc, fun h => absurd h hbad, fun _ => hact⟩, fun h => absurd h hbad⟩
  rw [prepare, if_neg (not_not.mpr hv), if_neg hg]
  refine (wp_bind _ _ (prepareOps _) _).mpr
    (wp_mono (fun _ _ h => h) (fun _ h => h) ?_ _ (prepareOps_readied rfl rfl))
  rintro ⟨err, txn'⟩ ⟨hok, hfailed⟩
  dsimp only at hok hfailed ⊢
  by_cases he : err = espOk
  swap
  · rw [if_pos he]
    obtain ⟨txn'', rfl⟩ := hfailed he
    exact ⟨goesOn_of_finishError _ _ _ he _, fun h => absurd h he⟩
  rw [if_neg (not_not.mpr he)]
  obtain ⟨hact', hint', hgen⟩ := hok he
  split
  · refine ⟨trivial, fun err' _ => ?_⟩
    change wp _ _ _ (ite _ _ _)
    by_cases he' : err' = espOk
    · rw [if_neg (not_not.mpr he')]
      refine ⟨⟨?_, fun _ => hgen, fun h => absurd rfl h⟩, fun _ => hg⟩
      constructor <;> simp [hact']
    · rw [if_pos he']
      exact ⟨goesOn_of_finishError _ _ _ he' _, fun h => absurd h he'⟩
  · refine wp_mono (fun _ _ h => h) (fun _ h => h) ?_ _ (connect_goesOn hact' hint')
    rintro out ⟨hout, -⟩
    exact ⟨hgen ▸ hout, fun _ => hg⟩

end WifiTxn

end Generation

/-! ## One event -/

section Events

variable {κ : Type}

/-- What is processed comes in an operational mode, under the generation that is on. -/
theorem netDecideStaEvent_process {mode : NetworkMode} {event : StaLifecycleEvent}
    {eventGeneration active : UInt32} {started connected ip : Bool}
    (h : netDecideStaEvent mode event eventGeneration active started connected ip = .process) :
    mode.operational ∧ eventGeneration = active := by
  unfold netDecideStaEvent at h
  split at h
  · split at h <;> cases h
  split at h
  · cases h
  split at h
  · cases h
  next hop =>
  split at h
  · cases h
  next hgen =>
  refine ⟨not_not.mp hop, ?_⟩
  by_contra hne
  refine hgen ⟨hne, ?_⟩
  by_contra hz
  simp only [not_or, not_not] at hz
  exact hne (hz.1.trans hz.2.symm)

namespace NetMgr

variable {s s' : NetMgr κ}

theorem clearStaFlags_records (s : NetMgr κ) (event : StaLifecycleEvent) (action : StaEventAction) :
    (s.clearStaFlags event action).txn = s.txn ∧
      (s.clearStaFlags event action).activeTransactionGeneration = s.activeTransactionGeneration := by
  unfold clearStaFlags
  split_ifs <;> exact ⟨rfl, rfl⟩

/-- An event that is not processed leaves the transaction alone. -/
theorem applyStaEventAction_records (s : NetMgr κ) (event : StaLifecycleEvent)
    (action : StaEventAction) :
    (s.applyStaEventAction event action).txn = s.txn ∧
      (s.applyStaEventAction event action).activeTransactionGeneration =
        s.activeTransactionGeneration := by
  unfold applyStaEventAction
  split <;> exact clearStaFlags_records s event action

theorem scheduleRetry_records (s : NetMgr κ) (retryStarted : Bool) :
    (s.scheduleRetry retryStarted).txn = s.txn ∧
      (s.scheduleRetry retryStarted).activeTransactionGeneration = s.activeTransactionGeneration := by
  unfold scheduleRetry
  split <;> exact ⟨rfl, rfl⟩

theorem scheduleRetry_failed (s : NetMgr κ) (retryStarted : Bool) :
    (s.scheduleRetry retryStarted).staState.failed := by
  unfold scheduleRetry
  by_cases hne : netEvaluateRetry s.lastDisconnectCategory s.authFailures = .actionRequired
  · rw [if_pos hne]
    exact .inr (.inl rfl)
  · rw [if_neg hne]
    have hretry : netEvaluateRetry s.lastDisconnectCategory s.authFailures = .retryWait := by
      unfold netEvaluateRetry at hne ⊢
      split
      next hc => exact absurd (if_pos hc) hne
      · rfl
    cases retryStarted with
    | true => exact .inl hretry
    | false => exact .inr (.inr rfl)

theorem recordFailure_records (classify : UInt8 → DisconnectCategory) (s : NetMgr κ)
    (reason : UInt8) (timerGeneration : UInt32) (retryStarted : Bool) :
    (s.recordFailure classify reason timerGeneration retryStarted).txn = s.txn ∧
      (s.recordFailure classify reason timerGeneration retryStarted).activeTransactionGeneration =
        s.activeTransactionGeneration := by
  unfold recordFailure
  split
  · split
    · exact ⟨rfl, rfl⟩
    · exact scheduleRetry_records _ retryStarted
  · exact ⟨rfl, rfl⟩

/-- An IP timeout leaves the station to be reconnected. -/
theorem recordFailure_failed (classify : UInt8 → DisconnectCategory) {reason : UInt8}
    {timerGeneration : UInt32} (retryStarted : Bool) (hop : s.netMode.operational)
    (hgen : timerGeneration = s.timerGeneration) :
    (s.recordFailure classify reason timerGeneration retryStarted).staState.failed := by
  unfold recordFailure
  rw [if_pos hop, if_neg fun h => h.2 hgen]
  exact scheduleRetry_failed _ retryStarted

variable [Zero κ]

/-- The records agree: the transaction is in order, and while it is active the station events
carry its generation. -/
structure Inv (s : NetMgr κ) : Prop where
  consistent : s.txn.Consistent
  generation : s.txn.active = true →
    s.activeTransactionGeneration = s.txn.generation ∧ s.txn.generation ≠ 0

theorem Inv.of_eq (h : s.Inv) (hr : s'.txn = s.txn ∧
    s'.activeTransactionGeneration = s.activeTransactionGeneration) : s'.Inv := by
  constructor
  · rw [hr.1]
    exact h.consistent
  · rw [hr.1, hr.2]
    exact h.generation

theorem Inv.of_inactive (hc : s.txn.Consistent) (hact : s.txn.active = false) : s.Inv :=
  ⟨hc, fun h => absurd (hact.symm.trans h) Bool.false_ne_true⟩

theorem inv_setNetMode (newMode : NetworkMode) (h : s.Inv) : (s.setNetMode newMode).Inv := by
  unfold setNetMode
  split_ifs
  · exact h
  · exact .of_inactive (WifiTxn.cancel_consistent s.txn) rfl
  · exact h.of_eq ⟨rfl, rfl⟩

theorem inv_cancelRecovery (s : NetMgr κ) (timersStopped : Bool) :
    (s.cancelRecovery timersStopped).Inv := by
  unfold cancelRecovery
  split_ifs <;> exact .of_inactive (WifiTxn.cancel_consistent s.txn) rfl

theorem inv_autoReconnectWakeup (timerGeneration : UInt32) (connectOk : Bool) (h : s.Inv) :
    (s.autoReconnectWakeup timerGeneration connectOk).Inv := by
  unfold autoReconnectWakeup
  split_ifs <;> exact h.of_eq ⟨rfl, rfl⟩

theorem inv_staAssociated (transactionGeneration : UInt32) (timerStarted : Bool) (h : s.Inv) :
    (s.staAssociated transactionGeneration timerStarted).Inv := by
  unfold staAssociated
  by_cases hp : s.decide .associated transactionGeneration s.activeTransactionGeneration = .process
  · rw [if_pos hp]
    exact h.of_eq ⟨rfl, rfl⟩
  · rw [if_neg hp]
    exact h.of_eq (applyStaEventAction_records s _ _)

theorem inv_staStopped (transactionGeneration : UInt32) (h : s.Inv) :
    (s.staStopped transactionGeneration).Inv := by
  unfold staStopped
  dsimp only
  split_ifs
  · exact h.of_eq (applyStaEventAction_records s _ _)
  · exact inv_setNetMode .networkFault (h.of_eq ⟨rfl, rfl⟩)
  · exact h

/-- `handle_got_ip` ends its transaction or leaves it. -/
theorem handleGotIp_cases {txn : WifiTxn κ} (eventGeneration : UInt32) (sta : StaState)
    (hc : txn.Consistent) :
    let out := txn.handleGotIp eventGeneration sta
    out.txn.Consistent ∧
      (out.taken = true ∧ out.txn.active = false ∨ out.taken = false ∧ out.txn = txn) := by
  have hinv := @WifiTxn.handleGotIp_inv κ _ txn [] sta eventGeneration
  unfold WifiTxn.handleGotIp at hinv ⊢
  split
  · exact ⟨hc, .inr ⟨rfl, rfl⟩⟩
  next h =>
    simp only [not_or, not_not] at h
    refine ⟨?_, .inl ⟨rfl, rfl⟩⟩
    have hint := hc.intentional
    rw [h.2] at hint
    constructor <;> simp_all [WifiTxn.scrubConfig]

theorem inv_staGotIp (transactionGeneration : UInt32) (h : s.Inv) :
    (s.staGotIp transactionGeneration).Inv := by
  unfold staGotIp
  dsimp only
  by_cases hp : s.decide .ipAcquired transactionGeneration s.activeTransactionGeneration = .process
  swap
  · rw [if_pos hp]
    exact h.of_eq (applyStaEventAction_records s _ _)
  rw [if_neg (not_not.mpr hp)]
  obtain ⟨hcons, hout⟩ := handleGotIp_cases transactionGeneration s.staState h.consistent
  generalize s.txn.handleGotIp transactionGeneration s.staState = out at hcons hout
  -- the records after the address, before the mode follows
  have hinner : ∀ t : NetMgr κ,
      t.txn = (if ¬ out.taken ∧ ¬ out.txn.active ∧ out.txn.state = .failed then WifiTxn.init
        else out.txn) →
      t.activeTransactionGeneration = (if out.taken then 0 else s.activeTransactionGeneration) →
      t.Inv := by
    intro t ht ha
    rcases hout with ⟨htaken, hact⟩ | ⟨htaken, htxn⟩
    · rw [if_neg fun hcon => hcon.1 htaken] at ht
      exact .of_inactive (ht ▸ hcons) (ht ▸ hact)
    · rw [htaken, if_neg Bool.false_ne_true] at ha
      split at ht
      · exact .of_inactive (ht ▸ WifiTxn.init_consistent) (ht ▸ rfl)
      · exact h.of_eq ⟨ht.trans htxn, ha⟩
  split
  · exact inv_setNetMode .apDiscoverable (hinner _ rfl rfl)
  · exact hinner _ rfl rfl

/-- `handle_disconnect` takes the disconnect it waits for, and leaves every other. -/
theorem handleDisconnect_cases {txn : WifiTxn κ} (eventGeneration : UInt32) (sta : StaState)
    (hc : txn.Consistent) :
    (txn.handleDisconnect eventGeneration sta).wp (fun _ _ => True) (fun _ => True) fun out =>
      (out.taken = true ∧ txn.active = true ∧ WifiGoesOn txn.generation out ∧
        (out.err = espOk → out.sta = .connecting)) ∨
      (out = ⟨espOk, txn, sta, false⟩ ∧
        ¬ (txn.eventMatches eventGeneration = true ∧ txn.state = .waitingDisconnect)) := by
  unfold WifiTxn.handleDisconnect
  split
  next h =>
    refine .inr ⟨rfl, fun hm => ?_⟩
    rcases h with h | h | h
    · exact h hm.1
    · exact h hm.2
    · exact h (hc.intentional.mpr hm.2)
  next h =>
    simp only [not_or, not_not] at h
    have hact : txn.active = true := by
      have hm := h.1
      simp only [WifiTxn.eventMatches, Bool.and_eq_true] at hm
      exact hm.1.1
    refine (Prog.wp_bind _ _ (WifiTxn.connect _ _) _).mpr ?_
    have hready : ({ txn with intentionalDisconnectRequested := false } : WifiTxn κ).active = true :=
      hact
    refine Prog.wp_mono (fun _ _ h => h) (fun _ h => h) ?_ _ (WifiTxn.connect_goesOn hready rfl)
    rintro out ⟨⟨hcons, hok, hfailed⟩, hsta⟩
    exact .inl ⟨rfl, hact, ⟨hcons, hok, hfailed⟩, hsta⟩

theorem handleConnectionFailure_cases (txn : WifiTxn κ) (eventGeneration : UInt32)
    (connectionError : EspErr) (sta : StaState) :
    let out := txn.handleConnectionFailure eventGeneration connectionError sta
    (out.taken = true ∧ out.txn.Consistent ∧ out.txn.active = false) ∨
      (out = ⟨espOk, txn, sta, false⟩ ∧
        ¬ (txn.eventMatches eventGeneration = true ∧ txn.state = .connecting)) := by
  unfold WifiTxn.handleConnectionFailure
  split
  next h =>
    refine .inr ⟨rfl, fun hm => ?_⟩
    rcases h with h | h
    · exact h hm.1
    · exact h hm.2
  · exact .inl ⟨rfl, WifiTxn.finishError_consistent txn connectionError, rfl⟩

/-- What one event does, as far as the promise is concerned. -/
structure Post (ev : NetEvent) (s s' : NetMgr κ) : Prop where
  inv : s'.Inv
  ended : ev.fails s → ¬ ev.timesOut s → s'.staState.failed → s'.txn.active = false
  kept : ev.timesOut s → s'.txn.active = s.txn.active ∧ s'.staState.failed

/-- An event that is no station failure. -/
theorem Post.of_inv {ev : NetEvent} (h : s'.Inv) (hf : ¬ ev.fails s) (ht : ¬ ev.timesOut s) :
    Post ev s s' :=
  ⟨h, fun hf' => absurd hf' hf, fun ht' => absurd ht' ht⟩

theorem beginTransaction_spec (kind : WifiTxnKind) (h : s.Inv) (hact : s.txn.active = false) :
    (s.beginTransaction kind).wp (fun _ _ => True) (fun _ => True) Inv := by
  unfold beginTransaction
  refine (Prog.wp_bind _ _ (WifiTxn.begin _ _ _ _ _ _ _) _).mpr ?_
  refine Prog.wp_mono (fun _ _ h => h) (fun _ h => h) ?_ _ (WifiTxn.begin_goesOn h.consistent hact)
  rintro out ⟨⟨hcons, hok, hfailed⟩, hne⟩
  by_cases he : out.err = espOk
  · refine ⟨hcons, fun _ => ?_⟩
    change (if out.err ≠ espOk then 0 else s.timerGeneration + 1) = out.txn.generation ∧
      out.txn.generation ≠ 0
    rw [if_neg (not_not.mpr he), hok he]
    exact ⟨rfl, hne he⟩
  · exact .of_inactive hcons (hfailed he)

theorem applyWifiConfig_spec (h : s.Inv) :
    s.applyWifiConfig.wp (fun _ _ => True) (fun _ => True) Inv := by
  unfold applyWifiConfig
  by_cases hact : s.txn.active = true
  · rw [if_pos hact]
    exact h
  · rw [if_neg hact]
    exact beginTransaction_spec .applyConfig h (Bool.eq_false_iff.mpr hact)

theorem manualReconnectRequest_spec (hasConfig : Bool) (h : s.Inv) :
    (s.manualReconnectRequest hasConfig).wp (fun _ _ => True) (fun _ => True) Inv := by
  unfold manualReconnectRequest
  split
  · by_cases hact : s.txn.active = true
    · rw [if_pos hact]
      exact h
    · rw [if_neg hact]
      exact beginTransaction_spec .manualReconnect h (Bool.eq_false_iff.mpr hact)
  · exact h

/-- A processed failure that no transaction takes finds none active. -/
theorem inactive_of_untaken {transactionGeneration : UInt32} (h : s.Inv)
    (hgen : transactionGeneration = s.activeTransactionGeneration)
    (hw : ¬ (s.txn.eventMatches transactionGeneration = true ∧ s.txn.state = .waitingDisconnect))
    (hf : ¬ (s.txn.eventMatches transactionGeneration = true ∧ s.txn.state = .connecting)) :
    s.txn.active = false := by
  rw [Bool.eq_false_iff]
  intro hact
  obtain ⟨hg, hz⟩ := h.generation hact
  have hm : s.txn.eventMatches transactionGeneration = true := by
    simp [WifiTxn.eventMatches, hact, hz, hgen, hg]
  rcases h.consistent.active.mp hact with hs | hs
  · exact hw ⟨hm, hs⟩
  · exact hf ⟨hm, hs⟩

theorem staDisconnected_spec (classify : UInt8 → DisconnectCategory) (reason : UInt8)
    (timerGeneration transactionGeneration : UInt32) (retryStarted : Bool) (h : s.Inv) :
    (s.staDisconnected classify reason timerGeneration transactionGeneration retryStarted).wp
      (fun _ _ => True) (fun _ => True)
      (Post (.staDisconnected reason timerGeneration transactionGeneration retryStarted) s) := by
  unfold staDisconnected
  by_cases hp : s.disconnectAction reason timerGeneration transactionGeneration = .process
  swap
  · rw [if_pos hp]
    exact .of_inv (h.of_eq (applyStaEventAction_records s _ _)) hp fun ht => hp ht.2
  rw [if_neg (not_not.mpr hp)]
  by_cases hz : reason = 0
  · -- the IP timeout: no transaction is told
    rw [if_pos hz]
    have ht : (NetEvent.staDisconnected reason timerGeneration transactionGeneration
        retryStarted).timesOut s := ⟨hz, hp⟩
    rw [disconnectAction, if_pos hz] at hp
    obtain ⟨hop, hgen⟩ := netDecideStaEvent_process hp
    have hrec := recordFailure_records classify s reason timerGeneration retryStarted
    exact ⟨h.of_eq hrec, fun _ hnt => absurd ht hnt,
      fun _ => ⟨by rw [hrec.1], recordFailure_failed classify retryStarted hop hgen⟩⟩
  · rw [if_neg hz]
    have ht : ¬ (NetEvent.staDisconnected reason timerGeneration transactionGeneration
        retryStarted).timesOut s := fun ht => hz ht.1
    rw [disconnectAction, if_neg hz] at hp
    have hgen := (netDecideStaEvent_process hp).2
    refine (Prog.wp_bind _ _ (WifiTxn.handleDisconnect _ _ _) _).mpr ?_
    refine Prog.wp_mono (fun _ _ h => h) (fun _ h => h) ?_ _
      (handleDisconnect_cases transactionGeneration s.staState h.consistent)
    rintro out (⟨htaken, hact, ⟨hcons, hok, hfailed⟩, hsta⟩ | ⟨rfl, hw⟩)
    · change Prog.wp _ _ _ (ite _ _ _)
      rw [if_pos htaken]
      by_cases he : out.err = espOk
      · refine ⟨⟨hcons, fun _ => ?_⟩, fun _ _ hs => ?_, fun ht' => absurd ht' ht⟩
        · change (if out.err ≠ espOk then 0 else s.activeTransactionGeneration) =
            out.txn.generation ∧ out.txn.generation ≠ 0
          rw [if_neg (not_not.mpr he), hok he]
          exact h.generation hact
        · have hconn : out.sta.failed := hs
          rw [hsta he] at hconn
          rcases hconn with hconn | hconn | hconn <;> cases hconn
      · exact ⟨.of_inactive hcons (hfailed he), fun _ _ _ => hfailed he, fun ht' => absurd ht' ht⟩
    · change Prog.wp _ _ _ (ite _ _ _)
      rw [if_neg Bool.false_ne_true]
      have hcf := handleConnectionFailure_cases s.txn transactionGeneration espErrWifiConn
        s.staState
      dsimp only at hcf ⊢
      generalize s.txn.handleConnectionFailure transactionGeneration espErrWifiConn s.staState =
        failed at hcf ⊢
      have hover : failed.txn.Consistent ∧ failed.txn.active = false := by
        rcases hcf with ⟨-, hover⟩ | ⟨rfl, hf⟩
        · exact hover
        · exact ⟨h.consistent, inactive_of_untaken h hgen hw hf⟩
      refine ⟨?_, fun _ _ _ => ?_, fun ht' => absurd ht' ht⟩
      · apply Inv.of_inactive
        · rw [(recordFailure_records _ _ _ _ _).1]
          exact hover.1
        · rw [(recordFailure_records _ _ _ _ _).1]
          exact hover.2
      · rw [(recordFailure_records _ _ _ _ _).1]
        exact hover.2

end NetMgr

variable [Zero κ]

open NetMgr in
/-- **One event.** -/
theorem NetEvent.spec (classify : UInt8 → DisconnectCategory) (ev : NetEvent) {s : NetMgr κ}
    (h : s.Inv) : (ev.prog classify s).wp (fun _ _ => True) (fun _ => True) (NetMgr.Post ev s) := by
  have hother : ∀ {s' : NetMgr κ}, s'.Inv → ¬ ev.fails s → ¬ ev.timesOut s → NetMgr.Post ev s s' :=
    fun hi => .of_inv hi
  cases ev with
  | manualReconnectRequest hasConfig =>
    exact Prog.wp_mono (fun _ _ h => h) (fun _ h => h) (fun _ hi => hother hi not_false not_false) _
      (manualReconnectRequest_spec hasConfig h)
  | applyWifiConfig =>
    exact Prog.wp_mono (fun _ _ h => h) (fun _ h => h) (fun _ hi => hother hi not_false not_false) _
      (applyWifiConfig_spec h)
  | autoReconnectWakeup timerGeneration connectOk =>
    exact hother (inv_autoReconnectWakeup timerGeneration connectOk h) not_false not_false
  | staAssociated transactionGeneration timerStarted =>
    exact hother (inv_staAssociated transactionGeneration timerStarted h) not_false not_false
  | staGotIp transactionGeneration =>
    exact hother (inv_staGotIp transactionGeneration h) not_false not_false
  | staDisconnected reason timerGeneration transactionGeneration retryStarted =>
    exact staDisconnected_spec classify reason timerGeneration transactionGeneration retryStarted h
  | staStopped transactionGeneration =>
    exact hother (inv_staStopped transactionGeneration h) not_false not_false
  | setNetMode newMode => exact hother (inv_setNetMode newMode h) not_false not_false
  | writeNetMode newMode => exact hother (h.of_eq ⟨rfl, rfl⟩) not_false not_false
  | cancelRecovery timersStopped =>
    exact hother (inv_cancelRecovery s timersStopped) not_false not_false
  | disableSta => exact hother (h.of_eq ⟨rfl, rfl⟩) not_false not_false
  | driver started connected ip => exact hother (h.of_eq ⟨rfl, rfl⟩) not_false not_false

theorem netStep_post {classify : UInt8 → DisconnectCategory} {s s' : NetMgr κ} {ev : NetEvent}
    (h : s.Inv) (hs : netStep classify s ev s') : NetMgr.Post ev s s' := by
  obtain ⟨calls, hrun⟩ := hs
  exact (hrun.of_wp (ev.spec classify h)).1

theorem NetMgr.Booted.inv {s : NetMgr κ} (h : s.Booted) : s.Inv := by
  apply NetMgr.Inv.of_inactive
  · rw [h.txn]
    exact WifiTxn.init_consistent
  · rw [h.txn]
    rfl

/-- **Failure events end the transaction, exactly.**  In every run from boot they do iff no IP
timeout is processed while a transaction is active. -/
theorem failures_end_iff (classify : UInt8 → DisconnectCategory) (s : NetMgr κ)
    (ms : List (NetMove κ)) (hs : s.Booted) (h : IsRun (netStep classify) s ms) :
    FailuresEnd ms ↔ TimeoutsFindNone ms := by
  have hpost : ∀ m ∈ ms, NetMgr.Post m.ev m.pre m.post := by
    intro m hm
    refine netStep_post ?_ (h.step_of_mem m hm)
    exact (h.inv hs.inv fun m hi hm => (netStep_post hi hm).inv).1 m hm |>.1
  constructor
  · intro hends m hm ht
    obtain ⟨hact, hfailed⟩ := (hpost m hm).kept ht
    rw [← hact]
    refine hends.ended m hm ?_ hfailed
    cases hev : m.ev <;> rw [hev] at ht <;> first | exact ht.2 | exact ht.elim
  · intro hnone
    have hended : ∀ m ∈ ms, m.ev.fails m.pre → m.post.staState.failed → m.post.txn.active = false := by
      intro m hm hf hfailed
      by_cases ht : m.ev.timesOut m.pre
      · exact ((hpost m hm).kept ht).1.trans (hnone m hm ht)
      · exact (hpost m hm).ended hf ht hfailed
    refine ⟨hended, ?_⟩
    rintro l v mid m r rfl hf hfailed hrefused
    have hover := hended v (by simp) hf hfailed
    -- from the failure's end to the refusing transaction, one must have begun
    rw [List.append_assoc, isRun_append, List.cons_append, isRun_cons, isRun_append, isRun_cons] at h
    obtain ⟨-, -, -, hmid, hpre, -⟩ := h
    obtain ⟨n, hn, hn0, hn1⟩ := hmid.exists_enter (P := fun s => s.txn.active = true)
      (Bool.eq_false_iff.mp hover) (hpre ▸ hrefused.1)
    exact ⟨n, hn, Bool.eq_false_iff.mpr hn0, hn1⟩

/-- The moves of some events, with every Wi-Fi operation `q` answered `env q`. -/
def playNet (classify : UInt8 → DisconnectCategory) (env : (q : WifiOp κ) → q.Answer) :
    NetMgr κ → List NetEvent → List (NetMove κ)
  | _, [] => []
  | s, ev :: evs =>
    let s' := ((ev.prog classify s).play env).2
    ⟨s, ev, s'⟩ :: playNet classify env s' evs

theorem playNet_isRun (classify : UInt8 → DisconnectCategory) (env : (q : WifiOp κ) → q.Answer)
    (s : NetMgr κ) (evs : List NetEvent) :
    IsRun (netStep classify) s (playNet classify env s evs) := by
  induction evs generalizing s with
  | nil => trivial
  | cons ev evs ih => exact ⟨rfl, ⟨_, Prog.play_runs (fun _ => trivial) _⟩, ih _⟩

/-- A commissioned controller after boot, with its driver up and not connected. -/
def bootedNet : NetMgr κ :=
  ⟨.apDiscoverable, .connecting, WifiTxn.init, 0, 0, 0, 0, true, false, false, .none, 0, 0⟩

theorem bootedNet_booted : (bootedNet : NetMgr κ).Booted := ⟨rfl, rfl⟩

end Events

/-- New credentials that the access point refuses: the transaction ends with the disconnect. -/
theorem failures_end_disconnected :
    FailuresEnd (playNet (fun _ => .authentication) (wifiSmooth plainPump) bootedNet
      [.applyWifiConfig, .staDisconnected 202 0 1 true, .manualReconnectRequest true]) :=
  (failures_end_iff _ _ _ bootedNet_booted (playNet_isRun _ _ _ _)).mpr (by decide)

/-- New credentials, an association and no address: the timeout leaves the transaction active. -/
theorem failures_end_breaks :
    ¬ ∀ (classify : UInt8 → DisconnectCategory) (s : NetMgr PlainConfig) (ms : List (NetMove PlainConfig)),
      s.Booted → IsRun (netStep classify) s ms → FailuresEnd ms := by
  intro h
  let ms := playNet (fun _ => .unknown) (wifiSmooth plainPump) bootedNet
    [.applyWifiConfig, .driver true true false, .staAssociated 1 true, .staDisconnected 0 1 0 true]
  have hends := h _ _ ms bootedNet_booted (playNet_isRun _ _ _ _)
  let m := ms.get ⟨3, by decide⟩
  have hover : m.post.txn.active = false := hends.ended m (List.get_mem _ _) rfl (.inl rfl)
  exact absurd hover (by decide)

end Argus
