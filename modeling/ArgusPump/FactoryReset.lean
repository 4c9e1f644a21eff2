import ArgusPump.Lib.Prog
import ArgusPump.ServiceEntry

/-!
# Factory reset

`main/argus_factory_reset.c`, the policy helpers and `argus_factory_reset_execute`: the
orchestration that erases the configuration and reboots, as a program over the hooks of
`argus_factory_reset_ops_t`.  Every hook may answer anything.

    locks      each is given back as often as taken, dispatch inside lifecycle
    erase      asked for right after HTTP stopped, a recheck under both locks that found
               the transition in place, and a revocation that succeeded
    reboot     asked for right after an erase that succeeded
    revoke     tried on every failure after the transition began, unless the lifecycle
               lock could not be taken

(`reset_orderly`).  Left out: the request's decoder and receiver, and the `ctx` pointer.
-/

namespace Argus

open Interact

/-! ## The policy -/

/-- The fields of `argus_net_snapshot_t` that the policy reads. -/
structure NetSnapshot where
  mode : NetworkMode
  staState : StaState
  staConnected : Bool
  staIpAcquired : Bool
  apStarted : Bool
  mqttBrokerRunning : Bool
  mqttBrokerStopped : Bool
  wifiTransactionActive : Bool
deriving DecidableEq

/-- The fields of `argus_state_snapshot_t` that the policy reads. -/
structure StateSnapshot where
  machineState : MachineState
  appliedRpmMilli : Int
  generatedRpmMilli : Int
  rampActive : Bool
  estopLatched : Bool
  faultCode : UInt32
deriving DecidableEq

def stateIsStationarySafe (state : StateSnapshot) : Bool :=
  !state.estopLatched && state.faultCode == 0 &&
    (state.machineState == .unlocked || state.machineState == .holding) &&
    state.appliedRpmMilli == 0 && state.generatedRpmMilli == 0 && !state.rampActive

def serviceNetworkIsConverged (net : NetSnapshot) : Bool :=
  !net.staConnected && !net.staIpAcquired && net.staState == .disabled && net.apStarted &&
    !net.mqttBrokerRunning && net.mqttBrokerStopped

/-- `argus_factory_reset_policy_result_t`. -/
inductive FactoryResetPolicy
  | ok | wrongNetwork | wrongAuthority | lifecycleConflict | unsafeMachine | networkNotConverged
deriving DecidableEq

/-- `argus_factory_reset_evaluate_policy`. -/
def factoryResetEvaluatePolicy (net : NetSnapshot) (authority : AuthoritySnapshot)
    (state : StateSnapshot) (lifecycleConflict : Bool) : FactoryResetPolicy :=
  if lifecycleConflict || net.wifiTransactionActive then .lifecycleConflict
  else if net.mode ≠ .serviceApOnly then .wrongNetwork
  else if authority.mode ≠ .localService ∨ authority.owner ≠ .browser then .wrongAuthority
  else if ¬ stateIsStationarySafe state then .unsafeMachine
  else if ¬ serviceNetworkIsConverged net then .networkNotConverged
  else .ok

/-! ## The orchestration -/

/-- The entries of `argus_factory_reset_ops_t`. -/
inductive FactoryResetOp
  | lockLifecycle | unlockLifecycle | lockDispatch | unlockDispatch
  | getNetworkSnapshot | getAuthoritySnapshot | getStateSnapshot
  | beginTransition | responseGraceDelay | stopHttp | revokeAuthority
  | eraseConfiguration | reboot
deriving DecidableEq

def FactoryResetOp.all : List FactoryResetOp :=
  [.lockLifecycle, .unlockLifecycle, .lockDispatch, .unlockDispatch, .getNetworkSnapshot,
    .getAuthoritySnapshot, .getStateSnapshot, .beginTransition, .responseGraceDelay, .stopHttp,
    .revokeAuthority, .eraseConfiguration, .reboot]

/-- What an entry hands back. -/
abbrev FactoryResetOp.Answer : FactoryResetOp → Type
  | .lockLifecycle | .beginTransition | .stopHttp | .revokeAuthority | .eraseConfiguration => EspErr
  | .unlockLifecycle | .lockDispatch | .unlockDispatch | .responseGraceDelay | .reboot => Unit
  | .getNetworkSnapshot => EspErr × NetSnapshot
  | .getAuthoritySnapshot => EspErr × AuthoritySnapshot
  | .getStateSnapshot => StateSnapshot

/-- `argus_factory_reset_step_t`; `none` is the `0` of a reset that got to its end. -/
inductive FactoryResetStep
  | none | lockLifecycle | preflight | beginTransition | responseGrace | stopHttp
  | finalRevalidation | revokeAuthority | eraseConfig | reboot
deriving DecidableEq

/-- `argus_factory_reset_result_t`. -/
structure FactoryResetResult where
  accepted : Bool
  failedAtStep : FactoryResetStep
  authorityRevoked : Bool
  httpStopped : Bool
  configurationErased : Bool
  rebootCalled : Bool
  error : EspErr
deriving DecidableEq

abbrev FactoryResetProg := Prog FactoryResetOp FactoryResetOp.Answer

abbrev FactoryResetLog := List (Σ q, FactoryResetOp.Answer q)

namespace FactoryReset

def call (q : FactoryResetOp) : FactoryResetProg q.Answer := .ask q .ret

/-- A result so far: nothing has been reached but this step. -/
def atStep (step : FactoryResetStep) (error : EspErr) : FactoryResetResult :=
  ⟨false, step, false, false, false, false, error⟩

/-- Both locks are given back. -/
def unlock (result : FactoryResetResult) : FactoryResetProg FactoryResetResult := do
  call .unlockDispatch
  call .unlockLifecycle
  return result

/-- The three snapshots, up to the first that cannot be taken. -/
def snapshots : FactoryResetProg (Except EspErr (NetSnapshot × AuthoritySnapshot × StateSnapshot)) := do
  let (error, net) ← call .getNetworkSnapshot
  if error ≠ espOk then return .error error
  let (error, authority) ← call .getAuthoritySnapshot
  if error ≠ espOk then return .error error
  let state ← call .getStateSnapshot
  return .ok (net, authority, state)

/-- `transition_valid`. -/
def transitionValid (net : NetSnapshot) (authority : AuthoritySnapshot) (state : StateSnapshot) :
    Bool :=
  net.mode == .serviceTransition && serviceNetworkIsConverged net &&
    authority.mode == .serviceTransition && authority.owner == .none && stateIsStationarySafe state

/-- From the erase on. -/
def erase (result : FactoryResetResult) : FactoryResetProg FactoryResetResult := do
  let error ← call .eraseConfiguration
  if error ≠ espOk then return { result with failedAtStep := .eraseConfig, error := error }
  call .reboot
  return { result with
    failedAtStep := .none, error := error, configurationErased := true, accepted := true
    rebootCalled := true }

/-- From the final revalidation on, once HTTP has stopped. -/
def finish (result : FactoryResetResult) : FactoryResetProg FactoryResetResult := do
  let error ← call .lockLifecycle
  if error ≠ espOk then return { result with failedAtStep := .finalRevalidation, error := error }
  call .lockDispatch
  match ← snapshots with
  | .error error =>
    let _ ← call .revokeAuthority
    unlock { result with failedAtStep := .finalRevalidation, error := error }
  | .ok (net, authority, state) =>
    if ¬ transitionValid net authority state then
      let _ ← call .revokeAuthority
      unlock { result with failedAtStep := .finalRevalidation, error := espErrInvalidState }
    else
      let error ← call .revokeAuthority
      if error ≠ espOk then
        unlock { result with failedAtStep := .revokeAuthority, error := error }
      else
        let result ← unlock { result with
          failedAtStep := .revokeAuthority, error := error, authorityRevoked := true }
        erase result

/-- HTTP could not be stopped: authority goes, if the lifecycle lock can be had. -/
def abandon (error : EspErr) : FactoryResetProg FactoryResetResult := do
  let locked ← call .lockLifecycle
  if locked ≠ espOk then return atStep .stopHttp error
  call .lockDispatch
  let revoked ← call .revokeAuthority
  unlock { atStep .stopHttp error with authorityRevoked := revoked == espOk }

/-- After the transition began. -/
def proceed : FactoryResetProg FactoryResetResult := do
  call .responseGraceDelay
  let error ← call .stopHttp
  if error ≠ espOk then abandon error
  else finish { atStep .stopHttp error with httpStopped := true }

end FactoryReset

open FactoryReset in
/-- `argus_factory_reset_execute`, over a table with the entries that `present` has. -/
def factoryResetExecute (present : FactoryResetOp → Bool) :
    FactoryResetProg FactoryResetResult := do
  if ¬ FactoryResetOp.all.all present then return atStep .preflight espErrInvalidArg
  let error ← call .lockLifecycle
  if error ≠ espOk then return atStep .lockLifecycle error
  call .lockDispatch
  match ← snapshots with
  | .error error => unlock (atStep .preflight error)
  | .ok (net, authority, state) =>
    if factoryResetEvaluatePolicy net authority state false ≠ .ok then
      unlock (atStep .preflight espErrInvalidState)
    else
      let error ← call .beginTransition
      let result ← unlock (atStep .beginTransition error)
      if error ≠ espOk then return result
      proceed

/-! ## What is promised -/

inductive ResetLock
  | lifecycle | dispatch
deriving DecidableEq

/-- The locks held after a call, the last taken first; `none` where a lock is taken or given
back out of turn. -/
def resetHold (held : List ResetLock) : (Σ q, FactoryResetOp.Answer q) → Option (List ResetLock)
  | ⟨.lockLifecycle, error⟩ =>
    if held = [] then some (if error = espOk then [.lifecycle] else []) else none
  | ⟨.lockDispatch, _⟩ => if held = [.lifecycle] then some [.dispatch, .lifecycle] else none
  | ⟨.unlockDispatch, _⟩ => if held = [.dispatch, .lifecycle] then some [.lifecycle] else none
  | ⟨.unlockLifecycle, _⟩ => if held = [.lifecycle] then some [] else none
  | _ => some held

def resetHeld (log : FactoryResetLog) : Option (List ResetLock) := log.foldlM resetHold []

/-- What stands right before an erase. -/
def ResetCleared (log : FactoryResetLog) : Prop :=
  ∃ earlier net authority state,
    log = earlier ++ [⟨.stopHttp, espOk⟩, ⟨.lockLifecycle, espOk⟩, ⟨.lockDispatch, ()⟩,
      ⟨.getNetworkSnapshot, (espOk, net)⟩, ⟨.getAuthoritySnapshot, (espOk, authority)⟩,
      ⟨.getStateSnapshot, state⟩, ⟨.revokeAuthority, espOk⟩, ⟨.unlockDispatch, ()⟩,
      ⟨.unlockLifecycle, ()⟩] ∧
    net.mode = .serviceTransition ∧ serviceNetworkIsConverged net = true ∧
    authority.mode = .serviceTransition ∧ authority.owner = .none ∧
    stateIsStationarySafe state = true

/-- When a hook may be called. -/
def ResetMayCall : FactoryResetOp → FactoryResetLog → Prop
  | .eraseConfiguration, log => ResetCleared log
  | .reboot, log => ∃ earlier, log = earlier ++ [⟨.eraseConfiguration, espOk⟩]
  | _, _ => True

/-- How a reset has to end. -/
structure ResetOrderly (result : FactoryResetResult) (log : FactoryResetLog) : Prop where
  locks : resetHeld log = some []
  revoked : ⟨.beginTransition, espOk⟩ ∈ log → result.error ≠ espOk →
    (∃ error, ⟨.revokeAuthority, error⟩ ∈ log) ∨ ∃ error, error ≠ espOk ∧ ⟨.lockLifecycle, error⟩ ∈ log

section Locks

variable {log tail : FactoryResetLog}

theorem resetHeld_append (log tail : FactoryResetLog) :
    resetHeld (log ++ tail) = (resetHeld log).bind fun held => tail.foldlM resetHold held := by
  unfold resetHeld
  rw [List.foldlM_append]
  rfl

/-- The entries that take a snapshot. -/
def FactoryResetOp.isSnapshot : FactoryResetOp → Bool
  | .getNetworkSnapshot | .getAuthoritySnapshot | .getStateSnapshot => true
  | _ => false

theorem resetHeld_snapshots (h : ∀ x ∈ tail, x.1.isSnapshot = true) :
    resetHeld (log ++ tail) = resetHeld log := by
  have hkeep : ∀ held, tail.foldlM resetHold held = some held := by
    induction tail with
    | nil => exact fun held => rfl
    | cons x tail ih =>
      intro held
      have hx : resetHold held x = some held := by
        obtain ⟨q, answer⟩ := x
        have hq := h ⟨q, answer⟩ List.mem_cons_self
        cases q <;> first | rfl | exact absurd hq Bool.false_ne_true
      rw [List.foldlM_cons, hx]
      exact ih (fun y hy => h y (List.mem_cons_of_mem _ hy)) held
  rw [resetHeld_append]
  cases resetHeld log with
  | none => rfl
  | some held => exact hkeep held

end Locks

namespace FactoryReset

open Prog

variable {post : FactoryResetResult → FactoryResetLog → Prop} {log : FactoryResetLog}
  {result : FactoryResetResult}

/-- Both locks go back. -/
theorem unlock_spec (h : post result (log ++ [⟨.unlockDispatch, ()⟩, ⟨.unlockLifecycle, ()⟩])) :
    (unlock result).wpS Logs ResetMayCall post log := by
  refine ⟨trivial, ?_⟩
  rintro _ _ rfl
  refine ⟨trivial, ?_⟩
  rintro _ _ rfl
  rw [List.append_assoc]
  exact h

theorem snapshots_spec
    {post : Except EspErr (NetSnapshot × AuthoritySnapshot × StateSnapshot) → FactoryResetLog → Prop}
    (herr : ∀ error tail, (∀ x ∈ tail, x.1.isSnapshot = true) → post (.error error) (log ++ tail))
    (hok : ∀ net authority state, post (.ok (net, authority, state)) (log ++
      [⟨.getNetworkSnapshot, (espOk, net)⟩, ⟨.getAuthoritySnapshot, (espOk, authority)⟩,
        ⟨.getStateSnapshot, state⟩])) :
    snapshots.wpS Logs ResetMayCall post log := by
  refine ⟨trivial, ?_⟩
  rintro ⟨error, net⟩ _ rfl
  change wpS _ _ _ (ite _ _ _) _
  by_cases hnet : error = espOk
  · rw [if_neg (not_not.mpr hnet)]
    refine ⟨trivial, ?_⟩
    rintro ⟨error', authority⟩ _ rfl
    change wpS _ _ _ (ite _ _ _) _
    by_cases hauth : error' = espOk
    · rw [if_neg (not_not.mpr hauth)]
      refine ⟨trivial, ?_⟩
      rintro state _ rfl
      rw [List.append_assoc, List.append_assoc, hnet, hauth]
      exact hok net authority state
    · rw [if_pos hauth, List.append_assoc]
      exact herr error' _ (by simp [FactoryResetOp.isSnapshot])
  · rw [if_pos hnet]
    exact herr error _ (by simp [FactoryResetOp.isSnapshot])

/-- The erase and the reboot after it: authority is gone by then, and no lock is held. -/
theorem erase_spec (hc : ResetCleared log) (hh : resetHeld log = some []) :
    (erase result).wpS Logs ResetMayCall ResetOrderly log := by
  refine ⟨hc, ?_⟩
  rintro error _ rfl
  change wpS _ _ _ (ite _ _ _) _
  have hr : ∀ tail, ∃ error, ⟨.revokeAuthority, error⟩ ∈ log ++ tail := by
    intro tail
    obtain ⟨earlier, net, authority, state, rfl, -⟩ := hc
    exact ⟨espOk, by simp⟩
  by_cases he : error = espOk
  · rw [if_neg (not_not.mpr he)]
    subst he
    refine ⟨⟨log, rfl⟩, ?_⟩
    rintro _ _ rfl
    refine ⟨?_, fun _ _ => .inl ?_⟩
    · simp [resetHeld_append, hh, resetHold]
    · rw [List.append_assoc]
      exact hr _
  · rw [if_pos he]
    refine ⟨?_, fun _ _ => .inl (hr _)⟩
    simp [resetHeld_append, hh, resetHold]

/-- Failing once authority was revoked, or with the revocation tried. -/
theorem orderly_of_revoked (hh : resetHeld log = some [])
    (hr : ∃ error, ⟨.revokeAuthority, error⟩ ∈ log) : ResetOrderly result log :=
  ⟨hh, fun _ _ => .inl hr⟩

/-- A failure under both locks tries to revoke authority and gives the locks back. -/
theorem revoke_spec (hheld : resetHeld log = some [.dispatch, .lifecycle]) (error : EspErr) :
    (unlock result).wpS Logs ResetMayCall ResetOrderly (log ++ [⟨.revokeAuthority, error⟩]) := by
  apply unlock_spec
  apply orderly_of_revoked
  · rw [resetHeld_append, resetHeld_append, hheld]
    simp [resetHold]
  · exact ⟨error, by simp⟩

theorem finish_spec {earlier : FactoryResetLog} (hlog : log = earlier ++ [⟨.stopHttp, espOk⟩])
    (hh : resetHeld log = some []) : (finish result).wpS Logs ResetMayCall ResetOrderly log := by
  refine ⟨trivial, ?_⟩
  rintro error _ rfl
  change wpS _ _ _ (ite _ _ _) _
  by_cases he : error = espOk
  · rw [if_neg (not_not.mpr he)]
    subst he
    refine ⟨trivial, ?_⟩
    rintro ⟨⟩ _ rfl
    rw [List.append_assoc]
    have hboth : resetHeld (log ++ ([⟨.lockLifecycle, espOk⟩] ++ [⟨.lockDispatch, ()⟩])) =
        some [.dispatch, .lifecycle] := by
      simp [resetHeld_append, hh, resetHold]
    refine (wpS_bind _ _ snapshots _ _).mpr (snapshots_spec ?_ ?_)
    · intro error tail htail
      refine ⟨trivial, ?_⟩
      rintro error' _ rfl
      exact revoke_spec ((resetHeld_snapshots htail).trans hboth) error'
    · intro net authority state
      dsimp only
      generalize hbase : log ++ ([⟨.lockLifecycle, espOk⟩] ++ [⟨.lockDispatch, ()⟩]) ++ _ = base
      have hbase' : resetHeld base = some [.dispatch, .lifecycle] := by
        rw [← hbase, resetHeld_snapshots (by simp [FactoryResetOp.isSnapshot]), hboth]
      by_cases hv : transitionValid net authority state = true
      · rw [if_neg (not_not.mpr hv)]
        refine ⟨trivial, ?_⟩
        rintro error _ rfl
        change wpS _ _ _ (ite _ _ _) _
        by_cases he : error = espOk
        · rw [if_neg (not_not.mpr he)]
          subst he
          refine (wpS_bind _ _ (unlock _) _ _).mpr (unlock_spec (erase_spec ?_ ?_))
          · simp only [transitionValid, Bool.and_eq_true, beq_iff_eq] at hv
            obtain ⟨⟨⟨⟨hmode, hconv⟩, hamode⟩, howner⟩, hsafe⟩ := hv
            refine ⟨earlier, net, authority, state, ?_, hmode, hconv, hamode, howner, hsafe⟩
            rw [← hbase, hlog]
            simp
          · rw [resetHeld_append, resetHeld_append, hbase']
            simp [resetHold]
        · rw [if_pos he]
          exact revoke_spec hbase' error
      · rw [if_pos hv]
        refine ⟨trivial, ?_⟩
        rintro error _ rfl
        exact revoke_spec hbase' error
  · rw [if_pos he]
    refine ⟨?_, fun _ _ => .inr ⟨error, he, by simp⟩⟩
    simp [resetHeld_append, hh, resetHold, he]

theorem abandon_spec {error : EspErr} (hh : resetHeld log = some []) :
    (abandon error).wpS Logs ResetMayCall ResetOrderly log := by
  refine ⟨trivial, ?_⟩
  rintro locked _ rfl
  change wpS _ _ _ (ite _ _ _) _
  by_cases hl : locked = espOk
  · rw [if_neg (not_not.mpr hl)]
    refine ⟨trivial, ?_⟩
    rintro ⟨⟩ _ rfl
    refine ⟨trivial, ?_⟩
    rintro revoked _ rfl
    refine revoke_spec ?_ revoked
    simp [resetHeld_append, hh, resetHold, hl]
  · rw [if_pos hl]
    refine ⟨?_, fun _ _ => .inr ⟨locked, hl, by simp⟩⟩
    simp [resetHeld_append, hh, resetHold, hl]

theorem proceed_spec (hh : resetHeld log = some []) :
    proceed.wpS Logs ResetMayCall ResetOrderly log := by
  refine ⟨trivial, ?_⟩
  rintro ⟨⟩ _ rfl
  refine ⟨trivial, ?_⟩
  rintro error _ rfl
  have hh' : resetHeld (log ++ [⟨.responseGraceDelay, ()⟩] ++ [⟨.stopHttp, error⟩]) = some [] := by
    simp [resetHeld_append, hh, resetHold]
  change wpS _ _ _ (ite _ _ _) _
  by_cases he : error = espOk
  · rw [if_neg (not_not.mpr he)]
    exact finish_spec (by rw [he]) hh'
  · rw [if_pos he]
    exact abandon_spec hh'

/-- Before the transition begins there is nothing to revoke. -/
theorem orderly_of_unbegun (hh : resetHeld log = some []) (hb : ⟨.beginTransition, espOk⟩ ∉ log) :
    ResetOrderly result log :=
  ⟨hh, fun hm => absurd hm hb⟩

end FactoryReset

open FactoryReset Prog in
theorem factoryResetExecute_spec (present : FactoryResetOp → Bool) :
    (factoryResetExecute present).wpS Logs ResetMayCall ResetOrderly [] := by
  unfold factoryResetExecute
  by_cases hp : FactoryResetOp.all.all present = true
  · rw [if_neg (not_not.mpr hp)]
    refine ⟨trivial, ?_⟩
    rintro error _ rfl
    change wpS _ _ _ (ite _ _ _) _
    by_cases he : error = espOk
    · rw [if_neg (not_not.mpr he)]
      subst he
      refine ⟨trivial, ?_⟩
      rintro ⟨⟩ _ rfl
      have hboth : resetHeld ([] ++ [⟨.lockLifecycle, espOk⟩] ++ [⟨.lockDispatch, ()⟩]) =
          some [.dispatch, .lifecycle] := by
        simp [resetHeld, resetHold]
      generalize hbase : ([] ++ [⟨.lockLifecycle, espOk⟩] ++ [⟨.lockDispatch, ()⟩] :
        FactoryResetLog) = base at hboth
      have hunbegun : ∀ tail : FactoryResetLog, (∀ x ∈ tail, x.1.isSnapshot = true) →
          ⟨.beginTransition, espOk⟩ ∉ base ++ tail := by
        intro tail htail hm
        rcases List.mem_append.mp hm with hm | hm
        · rw [← hbase] at hm
          simp at hm
        · exact absurd (htail _ hm) Bool.false_ne_true
      refine (wpS_bind _ _ snapshots _ _).mpr (snapshots_spec ?_ ?_)
      · intro error tail htail
        apply unlock_spec
        apply orderly_of_unbegun
        · rw [resetHeld_append, resetHeld_snapshots htail, hboth]
          simp [resetHold]
        · intro hm
          rcases List.mem_append.mp hm with hm | hm
          · exact hunbegun tail htail hm
          · simp at hm
      · intro net authority state
        have htail : ∀ x ∈ ([⟨.getNetworkSnapshot, (espOk, net)⟩,
            ⟨.getAuthoritySnapshot, (espOk, authority)⟩, ⟨.getStateSnapshot, state⟩] :
            FactoryResetLog), x.1.isSnapshot = true := by
          simp [FactoryResetOp.isSnapshot]
        have hun := hunbegun _ htail
        have hheld := (resetHeld_snapshots htail).trans hboth
        generalize base ++ _ = log at hun hheld
        dsimp only
        split
        · apply unlock_spec
          apply orderly_of_unbegun
          · rw [resetHeld_append, hheld]
            simp [resetHold]
          · simpa using hun
        · refine ⟨trivial, ?_⟩
          rintro error _ rfl
          refine (wpS_bind _ _ (unlock _) _ _).mpr (unlock_spec ?_)
          have hfree : resetHeld (log ++ [⟨.beginTransition, error⟩] ++
              [⟨.unlockDispatch, ()⟩, ⟨.unlockLifecycle, ()⟩]) = some [] := by
            rw [resetHeld_append, resetHeld_append, hheld]
            simp [resetHold]
          by_cases he : error = espOk
          · rw [if_neg (not_not.mpr he)]
            exact proceed_spec hfree
          · rw [if_pos he]
            apply orderly_of_unbegun hfree
            simpa [Ne.symm he] using hun
    · rw [if_pos he]
      apply orderly_of_unbegun
      · simp [resetHeld, resetHold, he]
      · simp
  · rw [if_pos hp]
    exact orderly_of_unbegun rfl (by simp)

/-- **Factory reset.**  Whatever the hooks answer: the locks balance, nothing is erased before
HTTP stopped, a recheck under both locks and a revocation, nothing reboots before an erase, and
a failure past the begun transition has tried to revoke. -/
theorem reset_orderly (present : FactoryResetOp → Bool) (tr : FactoryResetLog)
    (result : FactoryResetResult)
    (h : Prog.Runs (fun _ _ => True) (factoryResetExecute present) tr result) :
    ResetOrderly result tr ∧ ∀ before x after, tr = before ++ x :: after → ResetMayCall x.1 before := by
  have hlogged := h.logged (factoryResetExecute_spec present)
  simpa only [List.nil_append] using hlogged

/-- Hooks that all succeed; the transition has begun (`begun`) once it was asked for. -/
def smoothReset : (q : FactoryResetOp) → Bool → q.Answer × Bool
  | .lockLifecycle, begun | .stopHttp, begun | .revokeAuthority, begun
  | .eraseConfiguration, begun => (espOk, begun)
  | .unlockLifecycle, begun | .lockDispatch, begun | .unlockDispatch, begun
  | .responseGraceDelay, begun | .reboot, begun => ((), begun)
  | .beginTransition, _ => (espOk, true)
  | .getNetworkSnapshot, begun =>
    ((espOk, ⟨if begun then .serviceTransition else .serviceApOnly, .disabled, false, false, true,
      false, true, false⟩), begun)
  | .getAuthoritySnapshot, begun =>
    ((espOk, if begun then ⟨.serviceTransition, .none, 2⟩ else ⟨.localService, .browser, 1⟩), begun)
  | .getStateSnapshot, begun => (⟨.unlocked, 0, 0, false, false, 0⟩, begun)

/-- A reset that gets to its end. -/
theorem reset_orderly_smooth :
    let run := (factoryResetExecute fun _ => true).playS smoothReset false
    run.2.1.rebootCalled = true ∧ ResetOrderly run.2.1 run.1 :=
  ⟨by decide, (reset_orderly _ _ _
    (Prog.playS_exec (H := fun q s r t => smoothReset q s = (r, t)) (fun _ _ => rfl) _ false).runs).1⟩

end Argus
