import ArgusPump.Lib.Prog
import ArgusPump.Lib.Run
import ArgusPump.ServiceEntry

/-!
# The Wi-Fi transaction

`argus_wifi_transaction_*` of `main/argus_net_mgr.c`: one attempt to bring new credentials or a
manual reconnect onto the air, as programs over `argus_wifi_apply_ops_t`.  A transaction takes
the controls away, stops the broker and loads the configuration, then connects at once or waits
for its own disconnect; events carry the generation of the transaction they belong to.

    active ↔ WAITING_DISCONNECT or CONNECTING, credentials staged only in the first
    a foreign event changes nothing
    one apply and one connect a transaction, behind its revocation and its stopped broker

(`wifi_transaction_law`).  `κ` is `wifi_config_t`, with its all-zero value.  Left out: NULL
arguments, log lines.
-/

namespace Argus

open Interact

/-- `argus_wifi_apply_state_t`. -/
inductive WifiApplyState
  | idle | preparing | waitingDisconnect | applyingConfig | connecting | complete | failed | cancelled
deriving DecidableEq

/-- `argus_wifi_transaction_kind_t`. -/
inductive WifiTxnKind
  | none | applyConfig | manualReconnect
deriving DecidableEq

/-- `argus_wifi_transaction_t`. -/
structure WifiTxn (κ : Type) where
  state : WifiApplyState
  kind : WifiTxnKind
  generation : UInt32
  active : Bool
  intentionalDisconnectRequested : Bool
  configStaged : Bool
  authorityRevoked : Bool
  brokerStopped : Bool
  configApplied : Bool
  lastError : EspErr
  pendingConfig : κ
deriving DecidableEq

/-- The entries of `argus_wifi_apply_ops_t`, with their arguments. -/
inductive WifiOp (κ : Type)
  | stopTimers | revokeSupervisory | stopBroker | verifyBrokerStopped
  | loadConfig
  | validateConfig (cfg : κ) (hasCfg : Bool)
  | disconnectSta
  | applyStaConfig (cfg : κ)
  | connectSta
deriving DecidableEq

/-- What an entry hands back; `load_config` leaves a configuration behind whatever it returns. -/
abbrev WifiOp.Answer {κ : Type} : WifiOp κ → Type
  | .loadConfig => EspErr × κ × Bool
  | _ => EspErr

abbrev WifiProg (κ : Type) := Prog (WifiOp κ) WifiOp.Answer

abbrev WifiLog (κ : Type) := List (Σ q : WifiOp κ, q.Answer)

/-- What a call hands back, with the station state it leaves. -/
structure WifiOut (κ : Type) where
  err : EspErr
  txn : WifiTxn κ
  sta : StaState
  /-- `*out_handled`, `*out_completed` or `*out_failed`. -/
  taken : Bool

namespace WifiTxn

variable {κ : Type}

def call (q : WifiOp κ) : WifiProg κ q.Answer := .ask q .ret

section Code

variable [Zero κ]

/-- `argus_wifi_transaction_init`. -/
def init : WifiTxn κ := ⟨.idle, .none, 0, false, false, false, false, false, false, espOk, 0⟩

/-- `wifi_transaction_scrub_config`. -/
def scrubConfig (txn : WifiTxn κ) : WifiTxn κ := { txn with pendingConfig := 0, configStaged := false }

/-- `wifi_transaction_finish_error`. -/
def finishError (txn : WifiTxn κ) (err : EspErr) : WifiTxn κ :=
  { txn.scrubConfig with
    active := false, intentionalDisconnectRequested := false, state := .failed, lastError := err }

/-- `argus_wifi_transaction_event_matches`. -/
def eventMatches (txn : WifiTxn κ) (eventGeneration : UInt32) : Bool :=
  txn.active && txn.generation != 0 && txn.generation == eventGeneration

/-- `wifi_transaction_validate_inputs`; `complete` says that no entry of the table is NULL. -/
def validateInputs (txn : WifiTxn κ) (netMode : NetworkMode) (complete : Bool) : EspErr :=
  if ¬ complete then espErrInvalidArg
  else if txn.active then espErrInvalidState
  else if netMode ≠ .apDiscoverable ∧ netMode ≠ .uncommissionedAp ∧ netMode ≠ .commissionedSta ∧
      netMode ≠ .networkFault then espErrInvalidState
  else espOk

/-- The operations of `wifi_transaction_prepare`, up to the first that fails. -/
def prepareOps (txn : WifiTxn κ) : WifiProg κ (EspErr × WifiTxn κ) := do
  let err : EspErr ← call .stopTimers
  if err ≠ espOk then return (err, txn.finishError err)
  let err : EspErr ← call .revokeSupervisory
  if err ≠ espOk then return (err, txn.finishError err)
  let txn := { txn with authorityRevoked := true }
  let err : EspErr ← call .stopBroker
  if err ≠ espOk then return (err, txn.finishError err)
  let err : EspErr ← call .verifyBrokerStopped
  if err ≠ espOk then return (err, txn.finishError err)
  let txn := { txn with brokerStopped := true }
  let (err, cfg, hasCfg) ← call .loadConfig
  let txn := { txn with pendingConfig := cfg }
  if err ≠ espOk then return (err, txn.finishError err)
  let txn := { txn with configStaged := hasCfg }
  let err : EspErr ← call (.validateConfig txn.pendingConfig hasCfg)
  if err ≠ espOk then return (err, txn.finishError err)
  return (espOk, txn)

/-- `wifi_transaction_prepare`. -/
def prepare (txn : WifiTxn κ) (generation : UInt32) (kind : WifiTxnKind) (netMode : NetworkMode)
    (complete : Bool) : WifiProg κ (EspErr × WifiTxn κ) :=
  if txn.validateInputs netMode complete ≠ espOk then
    .ret (txn.validateInputs netMode complete, txn)
  else if generation = 0 then .ret (espErrInvalidArg, txn)
  else prepareOps { (init : WifiTxn κ) with active := true, kind, generation, state := .preparing }

/-- `connect_sta`, with the credentials gone from memory. -/
def connectScrubbed (txn : WifiTxn κ) : WifiProg κ (WifiOut κ) := do
  let err : EspErr ← call .connectSta
  if err ≠ espOk then return ⟨err, txn.scrubConfig.finishError err, .idle, false⟩
  return ⟨espOk, { txn.scrubConfig with state := .connecting }, .connecting, false⟩

/-- `wifi_transaction_connect`. -/
def connect (txn : WifiTxn κ) (sta : StaState) : WifiProg κ (WifiOut κ) :=
  if txn.kind = .applyConfig then do
    let txn := { txn with state := .applyingConfig }
    let err : EspErr ← call (.applyStaConfig txn.pendingConfig)
    if err ≠ espOk then return ⟨err, txn.finishError err, sta, false⟩
    connectScrubbed { txn with configApplied := true }
  else connectScrubbed txn

/-- `wifi_transaction_begin`. -/
def begin (txn : WifiTxn κ) (generation : UInt32) (kind : WifiTxnKind) (netMode : NetworkMode)
    (sta : StaState) (staConnected : Bool) (complete : Bool) : WifiProg κ (WifiOut κ) := do
  let (err, txn) ← txn.prepare generation kind netMode complete
  if err ≠ espOk then return ⟨err, txn, sta, false⟩
  if staConnected then
    let txn := { txn with state := .waitingDisconnect, intentionalDisconnectRequested := true }
    let err : EspErr ← call .disconnectSta
    if err ≠ espOk then return ⟨err, txn.finishError err, sta, false⟩
    return ⟨espOk, txn, sta, false⟩
  else connect txn sta

/-- `argus_wifi_transaction_handle_disconnect`. -/
def handleDisconnect (txn : WifiTxn κ) (eventGeneration : UInt32) (sta : StaState) :
    WifiProg κ (WifiOut κ) :=
  if ¬ txn.eventMatches eventGeneration ∨ txn.state ≠ .waitingDisconnect ∨
      ¬ txn.intentionalDisconnectRequested then .ret ⟨espOk, txn, sta, false⟩
  else do
    let out ← connect { txn with intentionalDisconnectRequested := false } sta
    return { out with taken := true }

/-- `argus_wifi_transaction_handle_got_ip`. -/
def handleGotIp (txn : WifiTxn κ) (eventGeneration : UInt32) (sta : StaState) : WifiOut κ :=
  if ¬ txn.eventMatches eventGeneration ∨ txn.state ≠ .connecting then ⟨espOk, txn, sta, false⟩
  else
    ⟨espOk, { txn.scrubConfig with active := false, state := .complete, lastError := espOk }, sta, true⟩

/-- `argus_wifi_transaction_handle_connection_failure`. -/
def handleConnectionFailure (txn : WifiTxn κ) (eventGeneration : UInt32) (connectionError : EspErr)
    (sta : StaState) : WifiOut κ :=
  if ¬ txn.eventMatches eventGeneration ∨ txn.state ≠ .connecting then ⟨espOk, txn, sta, false⟩
  else ⟨connectionError, txn.finishError connectionError, sta, true⟩

/-- `argus_wifi_transaction_cancel`. -/
def cancel (txn : WifiTxn κ) : WifiTxn κ :=
  { txn.scrubConfig with
    active := false, intentionalDisconnectRequested := false, state := .cancelled
    lastError := espErrInvalidState }

end Code

end WifiTxn

/-! ## Runs -/

/-- A call of one of the `argus_wifi_transaction_*` functions. -/
inductive WifiCall
  | beginApply (generation : UInt32) (netMode : NetworkMode) (staConnected : Bool) (complete : Bool)
  | beginReconnect (generation : UInt32) (netMode : NetworkMode) (staConnected : Bool)
      (complete : Bool)
  | handleDisconnect (eventGeneration : UInt32)
  | handleGotIp (eventGeneration : UInt32)
  | handleConnectionFailure (eventGeneration : UInt32) (connectionError : EspErr)
  | cancel
deriving DecidableEq

variable {κ : Type}

/-- One executed call: the station state it found, the operations it called and what it handed
back. -/
structure WifiEvent (κ : Type) where
  call : WifiCall
  sta : StaState
  calls : WifiLog κ
  out : WifiOut κ

abbrev WifiMove (κ : Type) := Move (WifiTxn κ) (WifiEvent κ)

/-- A transaction begins: the inputs pass. -/
def WifiCall.begins (c : WifiCall) (txn : WifiTxn κ) : Prop :=
  match c with
  | .beginApply generation netMode _ complete | .beginReconnect generation netMode _ complete =>
    txn.validateInputs netMode complete = espOk ∧ generation ≠ 0
  | _ => False

instance (c : WifiCall) (txn : WifiTxn κ) : Decidable (c.begins txn) :=
  match c with
  | .beginApply _ _ _ _ | .beginReconnect _ _ _ _ => inferInstanceAs (Decidable (_ ∧ _))
  | .handleDisconnect _ | .handleGotIp _ | .handleConnectionFailure _ _ | .cancel =>
    inferInstanceAs (Decidable False)

/-- The operations called for the transaction that is on, or was last. -/
def txnCalls (ms : List (WifiMove κ)) : WifiLog κ :=
  ms.foldl (fun log m => if m.ev.call.begins m.pre then m.ev.calls else log ++ m.ev.calls) []

theorem txnCalls_append (ms : List (WifiMove κ)) (m : WifiMove κ) :
    txnCalls (ms ++ [m]) =
      if m.ev.call.begins m.pre then m.ev.calls else txnCalls ms ++ m.ev.calls := by
  unfold txnCalls
  rw [List.foldl_append]
  rfl

/-- An event of another transaction than the one that is on. -/
def WifiCall.foreign (c : WifiCall) (txn : WifiTxn κ) : Prop :=
  match c with
  | .handleDisconnect eventGeneration | .handleGotIp eventGeneration
  | .handleConnectionFailure eventGeneration _ => ¬ (txn.active ∧ txn.generation = eventGeneration)
  | _ => False

/-- An event of another transaction matches none. -/
theorem WifiTxn.eventMatches_of_foreign {txn : WifiTxn κ} {eventGeneration : UInt32}
    (h : ¬ (txn.active = true ∧ txn.generation = eventGeneration)) :
    ¬ txn.eventMatches eventGeneration = true := by
  intro hm
  simp only [eventMatches, Bool.and_eq_true, beq_iff_eq] at hm
  exact h ⟨hm.1.1, hm.2⟩

/-! ## What is promised -/

def WifiOp.isApply : WifiOp κ → Bool
  | .applyStaConfig _ => true
  | _ => false

def WifiOp.isConnect : WifiOp κ → Bool
  | .connectSta => true
  | _ => false

/-- How often a transaction's configuration was applied, and how often it connected. -/
def applyCount (log : WifiLog κ) : Nat := log.countP (·.1.isApply)

def connectCount (log : WifiLog κ) : Nat := log.countP (·.1.isConnect)

@[simp] theorem applyCount_snoc (log : WifiLog κ) (q : WifiOp κ) (r : q.Answer) :
    applyCount (log ++ [⟨q, r⟩]) = applyCount log + if q.isApply then 1 else 0 := by
  unfold applyCount
  rw [List.countP_append, List.countP_singleton]

@[simp] theorem connectCount_snoc (log : WifiLog κ) (q : WifiOp κ) (r : q.Answer) :
    connectCount (log ++ [⟨q, r⟩]) = connectCount log + if q.isConnect then 1 else 0 := by
  unfold connectCount
  rw [List.countP_append, List.countP_singleton]

/-- Authority was revoked and the broker found stopped. -/
def WifiPrepared (log : WifiLog κ) : Prop :=
  ⟨.revokeSupervisory, espOk⟩ ∈ log ∧ ⟨.verifyBrokerStopped, espOk⟩ ∈ log

theorem WifiPrepared.append {log : WifiLog κ} (h : WifiPrepared log) (tail : WifiLog κ) :
    WifiPrepared (log ++ tail) :=
  ⟨List.mem_append_left _ h.1, List.mem_append_left _ h.2⟩

/-- What `apply_sta_config` and `connect_sta` are called after. -/
def WifiMayCall (q : WifiOp κ) (log : WifiLog κ) : Prop :=
  q.isApply = true ∨ q.isConnect = true → WifiPrepared log

/-- The operations of one transaction: it applies and connects at most once, prepared. -/
structure WifiDisciplined (log : WifiLog κ) : Prop where
  applies : applyCount log ≤ 1
  connects : connectCount log ≤ 1
  prepared : ∀ before x after, log = before ++ x :: after → WifiMayCall x.1 before

variable [Zero κ]

def WifiCall.prog (c : WifiCall) (txn : WifiTxn κ) (sta : StaState) : WifiProg κ (WifiOut κ) :=
  match c with
  | .beginApply generation netMode staConnected complete =>
    txn.begin generation .applyConfig netMode sta staConnected complete
  | .beginReconnect generation netMode staConnected complete =>
    txn.begin generation .manualReconnect netMode sta staConnected complete
  | .handleDisconnect eventGeneration => txn.handleDisconnect eventGeneration sta
  | .handleGotIp eventGeneration => .ret (txn.handleGotIp eventGeneration sta)
  | .handleConnectionFailure eventGeneration connectionError =>
    .ret (txn.handleConnectionFailure eventGeneration connectionError sta)
  | .cancel => .ret ⟨espOk, txn.cancel, sta, false⟩

def wifiStep (txn : WifiTxn κ) (ev : WifiEvent κ) (txn' : WifiTxn κ) : Prop :=
  Prog.Runs (fun _ _ => True) (ev.call.prog txn ev.sta) ev.calls ev.out ∧ txn' = ev.out.txn

/-- The fields agree on where the transaction is. -/
structure WifiTxn.Consistent (txn : WifiTxn κ) : Prop where
  active : txn.active = true ↔ txn.state = .waitingDisconnect ∨ txn.state = .connecting
  intentional : txn.intentionalDisconnectRequested = true ↔ txn.state = .waitingDisconnect
  scrubbed : txn.state ≠ .waitingDisconnect → txn.pendingConfig = 0 ∧ txn.configStaged = false

structure WifiTxnLaw (ms : List (WifiMove κ)) : Prop where
  consistent : ∀ m ∈ ms, m.post.Consistent
  foreign : ∀ m ∈ ms, m.ev.call.foreign m.pre →
    m.post = m.pre ∧ m.ev.calls = [] ∧ m.ev.out.sta = m.ev.sta
  calls : ∀ l r, ms = l ++ r → WifiDisciplined (txnCalls l)

/-! ## One call -/

/-- The transaction and the operations called for it so far. -/
structure WifiTxnInv (txn : WifiTxn κ) (log : WifiLog κ) : Prop where
  consistent : txn.Consistent
  applies : applyCount log ≤ 1
  connects : connectCount log ≤ 1
  ready : txn.state = .waitingDisconnect →
    WifiPrepared log ∧ applyCount log = 0 ∧ connectCount log = 0

/-- How preparing ends: failed, or ready to connect; nothing was applied or connected. -/
structure WifiPreparing (a : EspErr × WifiTxn κ) (log : WifiLog κ) : Prop where
  applies : applyCount log = 0
  connects : connectCount log = 0
  failed : a.1 ≠ espOk → ∃ txn, a.2 = WifiTxn.finishError txn a.1
  ready : a.1 = espOk → WifiPrepared log ∧ a.2.active = true ∧
    a.2.intentionalDisconnectRequested = false

namespace WifiTxn

open Prog

variable {txn : WifiTxn κ} {log : WifiLog κ} {sta : StaState}

theorem init_consistent : (init : WifiTxn κ).Consistent := by
  constructor <;> simp [init]

theorem finishError_consistent (txn : WifiTxn κ) (err : EspErr) :
    (txn.finishError err).Consistent := by
  constructor <;> simp [finishError, scrubConfig]

theorem cancel_consistent (txn : WifiTxn κ) : txn.cancel.Consistent := by
  constructor <;> simp [cancel, scrubConfig]

/-- A transaction that failed, whatever it had called. -/
theorem inv_of_finishError (txn : WifiTxn κ) (err : EspErr) (ha : applyCount log ≤ 1)
    (hc : connectCount log ≤ 1) : WifiTxnInv (txn.finishError err) log :=
  ⟨finishError_consistent txn err, ha, hc, fun h => by simp [finishError] at h⟩

theorem connectScrubbed_spec (hact : txn.active = true)
    (hint : txn.intentionalDisconnectRequested = false) (hp : WifiPrepared log)
    (ha : applyCount log ≤ 1) (hc : connectCount log = 0) :
    txn.connectScrubbed.wpS Logs WifiMayCall (fun out => WifiTxnInv out.txn) log := by
  refine ⟨fun _ => hp, ?_⟩
  rintro err _ rfl
  change wpS _ _ _ (ite _ _ _) _
  have ha' : applyCount (log ++ [⟨.connectSta, err⟩]) ≤ 1 := by
    simpa [WifiOp.isApply] using ha
  have hc' : connectCount (log ++ [⟨.connectSta, err⟩]) ≤ 1 := by
    simp [WifiOp.isConnect, hc]
  by_cases he : err = espOk
  · rw [if_neg (not_not.mpr he)]
    refine ⟨?_, ha', hc', fun h => by simp at h⟩
    constructor <;> simp [scrubConfig, hact, hint]
  · rw [if_pos he]
    exact inv_of_finishError _ err ha' hc'

theorem connect_spec (hact : txn.active = true)
    (hint : txn.intentionalDisconnectRequested = false) (hp : WifiPrepared log)
    (ha : applyCount log = 0) (hc : connectCount log = 0) :
    (txn.connect sta).wpS Logs WifiMayCall (fun out => WifiTxnInv out.txn) log := by
  unfold connect
  split
  · refine ⟨fun _ => hp, ?_⟩
    rintro err _ rfl
    change wpS _ _ _ (ite _ _ _) _
    have ha' : applyCount (log ++ [⟨.applyStaConfig txn.pendingConfig, err⟩]) ≤ 1 := by
      simp [WifiOp.isApply, ha]
    have hc' : connectCount (log ++ [⟨.applyStaConfig txn.pendingConfig, err⟩]) = 0 := by
      simp [WifiOp.isConnect, hc]
    by_cases he : err = espOk
    · rw [if_neg (not_not.mpr he)]
      exact connectScrubbed_spec hact hint (hp.append _) ha' hc'
    · rw [if_pos he]
      exact inv_of_finishError _ err ha' (hc' ▸ Nat.zero_le 1)
  · exact connectScrubbed_spec hact hint hp (by omega) hc

/-- One operation of `wifi_transaction_prepare`, and the way out if it fails. -/
theorem attempt_spec {q : WifiOp κ} (result : q.Answer → EspErr) (failing : q.Answer → WifiTxn κ)
    {k : q.Answer → WifiProg κ (EspErr × WifiTxn κ)} (hqa : q.isApply = false)
    (hqc : q.isConnect = false) (ha : applyCount log = 0) (hc : connectCount log = 0)
    (hk : ∀ r, result r = espOk → applyCount (log ++ [⟨q, r⟩]) = 0 →
      connectCount (log ++ [⟨q, r⟩]) = 0 →
      (k r).wpS Logs WifiMayCall WifiPreparing (log ++ [⟨q, r⟩])) :
    (Prog.ask q fun r => if result r ≠ espOk then .ret (result r, (failing r).finishError (result r))
      else k r).wpS Logs WifiMayCall WifiPreparing log := by
  refine ⟨fun h => absurd h (by simp [hqa, hqc]), ?_⟩
  rintro r _ rfl
  have ha' : applyCount (log ++ [⟨q, r⟩]) = 0 := by simp [hqa, ha]
  have hc' : connectCount (log ++ [⟨q, r⟩]) = 0 := by simp [hqc, hc]
  change wpS _ _ _ (ite _ _ _) _
  by_cases he : result r = espOk
  · rw [if_neg (not_not.mpr he)]
    exact hk r he ha' hc'
  · rw [if_pos he]
    exact ⟨ha', hc', fun _ => ⟨_, rfl⟩, fun h => absurd h he⟩

theorem prepareOps_spec (hact : txn.active = true)
    (hint : txn.intentionalDisconnectRequested = false) :
    txn.prepareOps.wpS Logs WifiMayCall WifiPreparing [] := by
  refine attempt_spec (q := .stopTimers) id (fun _ => txn) rfl rfl rfl rfl ?_
  rintro timers rfl ha hc
  refine attempt_spec (q := .revokeSupervisory) id (fun _ => txn) rfl rfl ha hc ?_
  rintro revoked rfl ha hc
  refine attempt_spec (q := .stopBroker) id (fun _ => _) rfl rfl ha hc ?_
  rintro stopped rfl ha hc
  refine attempt_spec (q := .verifyBrokerStopped) id (fun _ => _) rfl rfl ha hc ?_
  rintro verified rfl ha hc
  refine attempt_spec (q := .loadConfig) (·.1) (fun _ => _) rfl rfl ha hc ?_
  rintro ⟨err, cfg, hasCfg⟩ rfl ha hc
  refine attempt_spec (q := .validateConfig cfg hasCfg) id (fun _ => _) rfl rfl ha hc ?_
  rintro valid rfl ha hc
  exact ⟨ha, hc, fun h => absurd rfl h, fun _ => ⟨by simp [WifiPrepared], hact, hint⟩⟩

/-- Inputs that do not pass leave everything as it is. -/
theorem begin_refused {generation : UInt32} {kind : WifiTxnKind} {netMode : NetworkMode}
    {staConnected complete : Bool}
    (h : ¬ (txn.validateInputs netMode complete = espOk ∧ generation ≠ 0)) :
    ∃ err, txn.begin generation kind netMode sta staConnected complete =
      .ret ⟨err, txn, sta, false⟩ := by
  unfold begin prepare
  by_cases hv : txn.validateInputs netMode complete = espOk
  · have hg : generation = 0 := by_contra fun hg => h ⟨hv, hg⟩
    rw [if_neg (not_not.mpr hv), if_pos hg]
    exact ⟨espErrInvalidArg, rfl⟩
  · rw [if_pos hv]
    refine ⟨txn.validateInputs netMode complete, ?_⟩
    exact if_pos hv

theorem begin_spec {generation : UInt32} {kind : WifiTxnKind} {netMode : NetworkMode}
    {staConnected complete : Bool} (hv : txn.validateInputs netMode complete = espOk)
    (hg : generation ≠ 0) :
    (txn.begin generation kind netMode sta staConnected complete).wpS Logs WifiMayCall
      (fun out => WifiTxnInv out.txn) [] := by
  unfold begin prepare
  rw [if_neg (not_not.mpr hv), if_neg hg]
  refine (wpS_bind _ _ (prepareOps _) _ _).mpr (wpS_mono (fun _ _ h => h) ?_ _ _ (prepareOps_spec rfl rfl))
  rintro ⟨err, txn'⟩ log ⟨ha, hc, hfailed, hready⟩
  dsimp only at hfailed hready ⊢
  by_cases he : err = espOk
  swap
  · rw [if_pos he]
    obtain ⟨txn'', rfl⟩ := hfailed he
    exact inv_of_finishError txn'' err (by omega) (by omega)
  rw [if_neg (not_not.mpr he)]
  obtain ⟨hp, hact, hint⟩ := hready he
  split
  · -- wait for the disconnect that is asked for here
    refine ⟨fun h => absurd h (by simp [WifiOp.isApply, WifiOp.isConnect]), ?_⟩
    rintro err' _ rfl
    change wpS _ _ _ (ite _ _ _) _
    have ha' : applyCount (log ++ [⟨.disconnectSta, err'⟩]) = 0 := by simp [WifiOp.isApply, ha]
    have hc' : connectCount (log ++ [⟨.disconnectSta, err'⟩]) = 0 := by simp [WifiOp.isConnect, hc]
    by_cases he' : err' = espOk
    · rw [if_neg (not_not.mpr he')]
      refine ⟨?_, by omega, by omega, fun _ => ⟨hp.append _, ha', hc'⟩⟩
      constructor <;> simp [hact]
    · rw [if_pos he']
      exact inv_of_finishError _ err' (by omega) (by omega)
  · exact connect_spec hact hint hp ha hc

theorem handleDisconnect_spec {eventGeneration : UInt32} (hi : WifiTxnInv txn log) :
    (txn.handleDisconnect eventGeneration sta).wpS Logs WifiMayCall (fun out => WifiTxnInv out.txn)
      log := by
  unfold handleDisconnect
  split
  · exact hi
  next h =>
    simp only [not_or, not_not] at h
    obtain ⟨hm, hstate, -⟩ := h
    obtain ⟨hp, ha, hc⟩ := hi.ready hstate
    simp only [eventMatches, Bool.and_eq_true] at hm
    refine (wpS_bind _ _ (connect _ _) _ _).mpr ?_
    exact connect_spec hm.1.1 rfl hp ha hc

theorem handleGotIp_inv {eventGeneration : UInt32} (hi : WifiTxnInv txn log) :
    WifiTxnInv (txn.handleGotIp eventGeneration sta).txn log := by
  unfold handleGotIp
  split
  · exact hi
  next h =>
    simp only [not_or, not_not] at h
    refine ⟨?_, hi.applies, hi.connects, fun hs => by simp at hs⟩
    have hint := hi.consistent.intentional
    rw [h.2] at hint
    constructor <;> simp_all [scrubConfig]

theorem handleConnectionFailure_inv {eventGeneration : UInt32} {connectionError : EspErr}
    (hi : WifiTxnInv txn log) :
    WifiTxnInv (txn.handleConnectionFailure eventGeneration connectionError sta).txn log := by
  unfold handleConnectionFailure
  split
  · exact hi
  · exact inv_of_finishError txn connectionError hi.applies hi.connects

end WifiTxn

open WifiTxn Prog

/-- **One call**, for whichever transaction it begins or goes on with. -/
theorem WifiCall.spec (c : WifiCall) {txn : WifiTxn κ} {log : WifiLog κ} (sta : StaState)
    (hi : WifiTxnInv txn log) :
    (c.prog txn sta).wpS Logs WifiMayCall (fun out => WifiTxnInv out.txn)
      (if c.begins txn then [] else log) := by
  cases c with
  | beginApply generation netMode staConnected complete =>
    split
    next h => exact begin_spec h.1 h.2
    next h =>
      obtain ⟨err, hret⟩ := @begin_refused κ _ txn sta _ .applyConfig _ staConnected _ h
      rw [WifiCall.prog, hret]
      exact hi
  | beginReconnect generation netMode staConnected complete =>
    split
    next h => exact begin_spec h.1 h.2
    next h =>
      obtain ⟨err, hret⟩ := @begin_refused κ _ txn sta _ .manualReconnect _ staConnected _ h
      rw [WifiCall.prog, hret]
      exact hi
  | handleDisconnect eventGeneration =>
    have hb : ¬ WifiCall.begins (.handleDisconnect eventGeneration) txn := not_false
    rw [if_neg hb]
    exact handleDisconnect_spec hi
  | handleGotIp eventGeneration =>
    have hb : ¬ WifiCall.begins (.handleGotIp eventGeneration) txn := not_false
    rw [if_neg hb]
    exact handleGotIp_inv hi
  | handleConnectionFailure eventGeneration connectionError =>
    have hb : ¬ WifiCall.begins (.handleConnectionFailure eventGeneration connectionError) txn := not_false
    rw [if_neg hb]
    exact handleConnectionFailure_inv hi
  | cancel =>
    have hb : ¬ WifiCall.begins .cancel txn := not_false
    rw [if_neg hb]
    exact ⟨cancel_consistent txn, hi.applies, hi.connects, fun h => by simp [WifiTxn.cancel] at h⟩

/-- A foreign event calls nothing and leaves everything as it is. -/
theorem WifiCall.prog_of_foreign {c : WifiCall} {txn : WifiTxn κ} (sta : StaState)
    (h : c.foreign txn) : c.prog txn sta = .ret ⟨espOk, txn, sta, false⟩ := by
  cases c with
  | handleDisconnect eventGeneration =>
    exact if_pos (.inl (eventMatches_of_foreign h))
  | handleGotIp eventGeneration =>
    exact congrArg Prog.ret (if_pos (.inl (eventMatches_of_foreign h)))
  | handleConnectionFailure eventGeneration connectionError =>
    exact congrArg Prog.ret (if_pos (.inl (eventMatches_of_foreign h)))
  | beginApply _ _ _ _ => exact h.elim
  | beginReconnect _ _ _ _ => exact h.elim
  | cancel => exact h.elim

/-! ## All runs -/

/-- The transaction and its operations, after the moves `ms`. -/
def WifiRunInv (txn : WifiTxn κ) (ms : List (WifiMove κ)) : Prop :=
  WifiTxnInv txn (txnCalls ms) ∧ WifiDisciplined (txnCalls ms)

theorem wifiRunInv_step {ms : List (WifiMove κ)} {m : WifiMove κ} (hi : WifiRunInv m.pre ms)
    (hs : wifiStep m.pre m.ev m.post) : WifiRunInv m.post (ms ++ [m]) := by
  obtain ⟨hrun, hpost⟩ := hs
  obtain ⟨hinv, hasked⟩ := hrun.logged (m.ev.call.spec m.ev.sta hi.1)
  have hcalls : txnCalls (ms ++ [m]) =
      (if m.ev.call.begins m.pre then [] else txnCalls ms) ++ m.ev.calls := by
    rw [txnCalls_append]
    split <;> rfl
  unfold WifiRunInv
  rw [hcalls, hpost]
  refine ⟨hinv, hinv.applies, hinv.connects, forall_split_append.mpr ⟨?_, hasked⟩⟩
  split
  · exact forall_split_nil
  · exact hi.2.prepared

theorem run_wifiRunInv {ms : List (WifiMove κ)} (h : IsRun wifiStep WifiTxn.init ms) :
    WifiRunInv (final WifiTxn.init ms) ms := by
  refine h.inv_past ?_ fun ns m hi hs => wifiRunInv_step hi hs
  exact ⟨⟨init_consistent, Nat.zero_le 1, Nat.zero_le 1, fun h => by simp [WifiTxn.init] at h⟩,
    Nat.zero_le 1, Nat.zero_le 1, forall_split_nil⟩

/-- **The Wi-Fi transaction.**  In every run, with any generations and any outcomes, the fields
agree after each call, a foreign event changes nothing, and each transaction applies and connects
at most once, after its revocation and its stopped broker. -/
theorem wifi_transaction_law (ms : List (WifiMove κ)) (h : IsRun wifiStep WifiTxn.init ms) :
    WifiTxnLaw ms where
  consistent m hm := by
    obtain ⟨l, r, rfl, hl, hpre, -⟩ := h.split_of_mem hm
    have hlm : IsRun wifiStep WifiTxn.init (l ++ [m]) := by
      rw [isRun_append, isRun_cons]
      exact ⟨hl, hpre.symm, h.step_of_mem m hm, trivial⟩
    have hinv := (run_wifiRunInv hlm).1.consistent
    rwa [final_append] at hinv
  foreign m hm hf := by
    obtain ⟨hrun, hpost⟩ := h.step_of_mem m hm
    rw [WifiCall.prog_of_foreign m.ev.sta hf] at hrun
    obtain ⟨hcalls, hout⟩ := (runs_ret_iff _ _ _).mp hrun
    rw [hout] at hpost
    exact ⟨hpost, hcalls, by rw [hout]⟩
  calls l r hl := by
    subst hl
    exact (run_wifiRunInv ((isRun_append _ _ _).mp h).1).2

/-- The moves of some calls, with every operation `q` answered `env q`. -/
def playWifi (env : (q : WifiOp κ) → q.Answer) :
    WifiTxn κ → List (WifiCall × StaState) → List (WifiMove κ)
  | _, [] => []
  | txn, (c, sta) :: cs =>
    let run := (c.prog txn sta).play env
    ⟨txn, ⟨c, sta, run.1, run.2⟩, run.2.txn⟩ :: playWifi env run.2.txn cs

theorem playWifi_isRun (env : (q : WifiOp κ) → q.Answer) (txn : WifiTxn κ)
    (cs : List (WifiCall × StaState)) : IsRun wifiStep txn (playWifi env txn cs) := by
  induction cs generalizing txn with
  | nil => trivial
  | cons c cs ih => exact ⟨rfl, ⟨Prog.play_runs (fun _ => trivial) _, rfl⟩, ih _⟩

/-- A configuration with nothing but its SSID. -/
structure PlainConfig where
  ssid : List Char

instance : Zero PlainConfig := ⟨⟨[]⟩⟩

def plainPump : PlainConfig := ⟨['p', 'u', 'm', 'p']⟩

/-- Operations that all succeed, with this configuration. -/
def wifiSmooth (cfg : κ) : (q : WifiOp κ) → q.Answer
  | .loadConfig => (espOk, cfg, true)
  | .stopTimers | .revokeSupervisory | .stopBroker | .verifyBrokerStopped | .validateConfig _ _
  | .disconnectSta | .applyStaConfig _ | .connectSta => espOk

/-- New credentials for a station that is connected: its own disconnect, a stray one, an address. -/
theorem wifi_transaction_applies :
    let ms := playWifi (wifiSmooth plainPump) WifiTxn.init
      [(.beginApply 3 .commissionedSta true true, .connected), (.handleDisconnect 2, .connected),
        (.handleDisconnect 3, .connected), (.handleGotIp 3, .connecting)]
    connectCount (txnCalls ms) = 1 ∧ (final WifiTxn.init ms).state = .complete ∧ WifiTxnLaw ms :=
  ⟨by decide, by decide, wifi_transaction_law _ (playWifi_isRun _ _ _)⟩

end Argus
