import ArgusPump.CmdRouter

/-!
# Service entry

`main/argus_net_mgr.c`, `argus_net_mgr_orchestrate_service_entry`, over the authority core of
`main/argus_authority_mgr.c`: the way into `SERVICE_AP_ONLY` through the hooks of two tables,
which the caller calls with the network and the dispatch lock held and gets back from with
both released.

    a way out that gives both locks back fails closed
    every way out does ↔ the owner is a local one, `prepare_transition` succeeds and the hooks
      that lock, unlock and revalidate are there when they are due     (service_entry)

The hooks' answers are inputs, and so is what other tasks make of the authority while the
dispatch lock is free.  Left out: NULL pointers for the mode and the tables, and log lines.
-/

namespace Argus

/-! ## The authority core -/

/-- `argus_authority_core_t`. -/
structure AuthorityCore where
  mode : ControlAuthority
  owner : AuthorityOwner
  generation : UInt32
  lastError : EspErr
deriving DecidableEq

namespace AuthorityCore

/-- `argus_authority_core_set_mode`. -/
def setMode (core : AuthorityCore) (newMode : ControlAuthority) (newOwner : AuthorityOwner) :
    EspErr × AuthorityCore :=
  if authorityValidatePair newMode newOwner ≠ espOk then
    (authorityValidatePair newMode newOwner,
      { core with lastError := authorityValidatePair newMode newOwner })
  else (espOk, ⟨newMode, newOwner, core.generation + 1, espOk⟩)

/-- `argus_authority_core_prepare_service_transition`. -/
def prepareServiceTransition (core : AuthorityCore) : EspErr × AuthorityCore :=
  core.setMode .serviceTransition .none

/-- `argus_authority_core_abort_service_transition`. -/
def abortServiceTransition (core : AuthorityCore) : AuthorityCore := (core.setMode .none .none).2

/-- `argus_authority_core_grant_local_service`. -/
def grantLocalService (core : AuthorityCore) (requestedOwner : AuthorityOwner) :
    EspErr × AuthorityCore :=
  if requestedOwner ≠ .browser ∧ requestedOwner ≠ .diagnosticCli then
    (espErrInvalidArg, core.abortServiceTransition)
  else if core.mode ≠ .serviceTransition then (espErrInvalidState, core.abortServiceTransition)
  else core.setMode .localService requestedOwner

@[simp] theorem abortServiceTransition_mode (core : AuthorityCore) :
    core.abortServiceTransition.mode = .none := rfl

@[simp] theorem abortServiceTransition_owner (core : AuthorityCore) :
    core.abortServiceTransition.owner = .none := rfl

/-- For a local owner, the core grants what was prepared and nothing else. -/
theorem grantLocalService_eq (core : AuthorityCore) {requestedOwner : AuthorityOwner}
    (h : requestedOwner = .browser ∨ requestedOwner = .diagnosticCli) :
    core.grantLocalService requestedOwner =
      if core.mode = .serviceTransition then
        (espOk, ⟨.localService, requestedOwner, core.generation + 1, espOk⟩)
      else (espErrInvalidState, core.abortServiceTransition) := by
  have hlocal : ¬ (requestedOwner ≠ .browser ∧ requestedOwner ≠ .diagnosticCli) := by
    rintro ⟨hbrowser, hcli⟩
    exact h.elim hbrowser hcli
  unfold grantLocalService
  rw [if_neg hlocal]
  by_cases hmode : core.mode = .serviceTransition
  · rw [if_neg (not_not.mpr hmode), if_pos hmode]
    unfold setMode
    exact if_neg (by simp [authorityValidatePair, h])
  · rw [if_pos hmode, if_neg hmode]

end AuthorityCore

/-! ## The orchestration -/

/-- `argus_network_mode_t`. -/
inductive NetworkMode
  | bootstrap | uncommissionedAp | commissionedSta | apDiscoverable | serviceTransition
  | serviceApOnly | securityRecoveryTransition | securityRecoveryApOnly | networkFault
deriving DecidableEq

/-- `argus_sta_state_t`. -/
inductive StaState
  | disabled | idle | connecting | associatedWaitingIp | connected | retryWait | actionRequired
deriving DecidableEq

/-- The entries of `argus_service_authority_ops_t` and `argus_service_transition_ops_t`. -/
inductive ServiceHook
  | prepareTransition | grantLocal | abortTransition
  | requestNormalStop | verifyStopped | stopBroker | verifyBrokerStopped | disconnectSta
  | verifyStaDisconnected | verifyStaIpReleased | setWifiApOnly | verifyApActive | setStaDisabled
  | verifyMachineSafe
  | stopHttp | startHttp | unlockNet | lockNet | lockDispatch | unlockDispatch | revalidateNetwork
deriving DecidableEq

/-- The transition's steps: each action and then its verification. -/
def serviceSteps : List ServiceHook :=
  [.requestNormalStop, .verifyStopped, .stopBroker, .verifyBrokerStopped, .disconnectSta,
    .verifyStaDisconnected, .verifyStaIpReleased, .setWifiApOnly, .verifyApActive, .setStaDisabled,
    .verifyMachineSafe]

/-- The two tables, what their hooks answer, and what other tasks make of the authority while
a hook runs without the dispatch lock. -/
structure ServiceEnv where
  present : ServiceHook → Bool
  answer : ServiceHook → EspErr
  meanwhile : ServiceHook → AuthorityCore → AuthorityCore

namespace ServiceEnv

/-- The tables have what the orchestration insists on. -/
def valid (env : ServiceEnv) : Bool :=
  env.present .prepareTransition && env.present .grantLocal && env.present .abortTransition &&
    serviceSteps.all env.present

/-- `http_stop_err`: a missing hook counts as a success. -/
def httpStopErr (env : ServiceEnv) : EspErr :=
  if env.present .stopHttp then env.answer .stopHttp else espOk

end ServiceEnv

structure ServiceEntry where
  core : AuthorityCore
  netMode : NetworkMode
  /-- The hooks called, in order, and what they returned. -/
  calls : List (ServiceHook × EspErr)

namespace ServiceEntry

def log (s : ServiceEntry) (hook : ServiceHook) (err : EspErr) : ServiceEntry :=
  { s with calls := s.calls ++ [(hook, err)] }

/-- A hook that may be missing and whose answer is not looked at. -/
def optional (s : ServiceEntry) (env : ServiceEnv) (hook : ServiceHook) : ServiceEntry :=
  if env.present hook then s.log hook (env.answer hook) else s

/-- `prepare_transition`: it fails, or prepares the core. -/
def prepareTransition (s : ServiceEntry) (env : ServiceEnv) : EspErr × ServiceEntry :=
  let answered := if env.answer .prepareTransition ≠ espOk then (env.answer .prepareTransition, s.core)
    else s.core.prepareServiceTransition
  (answered.1, { s with core := answered.2 }.log .prepareTransition answered.1)

/-- `grant_local`: it fails, or asks the core. -/
def grantLocal (s : ServiceEntry) (env : ServiceEnv) (owner : AuthorityOwner) : EspErr × ServiceEntry :=
  let answered := if env.answer .grantLocal ≠ espOk then (env.answer .grantLocal, s.core)
    else s.core.grantLocalService owner
  (answered.1, { s with core := answered.2 }.log .grantLocal answered.1)

/-- `abort_transition`, and the network mode that comes with it. -/
def fault (s : ServiceEntry) : ServiceEntry :=
  { s with core := s.core.abortServiceTransition, netMode := .networkFault }.log .abortTransition espOk

/-- The steps, up to the first that fails. -/
def steps (s : ServiceEntry) (env : ServiceEnv) : List ServiceHook → EspErr × ServiceEntry
  | [] => (espOk, s)
  | hook :: hooks =>
    let called := { s with core := env.meanwhile hook s.core }.log hook (env.answer hook)
    if env.answer hook ≠ espOk then (env.answer hook, called) else called.steps env hooks

/-- From the label `abort_restore_http` on. -/
def abortRestoreHttp (s : ServiceEntry) (env : ServiceEnv) (httpStopErr : EspErr) : ServiceEntry :=
  if httpStopErr = espOk then (s.optional env .unlockNet).optional env .startHttp
  else s.optional env .unlockNet

/-- From the label `abort_transition` on. -/
def abortTransition (s : ServiceEntry) (env : ServiceEnv) (httpStopErr : EspErr) : ServiceEntry :=
  s.fault.abortRestoreHttp env httpStopErr

/-- From the label `abort_transition_with_dispatch` on. -/
def abortTransitionWithDispatch (s : ServiceEntry) (env : ServiceEnv) (httpStopErr : EspErr) :
    ServiceEntry :=
  (s.fault.optional env .unlockDispatch).abortRestoreHttp env httpStopErr

/-- `revalidate_network`, if it is there. -/
def revalidate (s : ServiceEntry) (env : ServiceEnv) : EspErr × ServiceEntry :=
  if env.present .revalidateNetwork then
    (env.answer .revalidateNetwork, s.log .revalidateNetwork (env.answer .revalidateNetwork))
  else (espOk, s)

/-- After revalidation: grant, and give both locks back. -/
def granting (s : ServiceEntry) (env : ServiceEnv) (owner : AuthorityOwner) (httpStopErr : EspErr) :
    EspErr × ServiceEntry :=
  let granted := s.grantLocal env owner
  if granted.1 ≠ espOk then (granted.1, granted.2.abortTransitionWithDispatch env httpStopErr)
  else
    (espOk, (({ granted.2 with netMode := .serviceApOnly }.optional env .unlockDispatch).optional env
      .unlockNet).optional env .startHttp)

/-- After the steps: take the dispatch lock again, revalidate and grant. -/
def grantPoint (s : ServiceEntry) (env : ServiceEnv) (owner : AuthorityOwner) (httpStopErr : EspErr) :
    EspErr × ServiceEntry :=
  let revalidated := (s.optional env .lockDispatch).revalidate env
  if revalidated.1 ≠ espOk then
    (revalidated.1, revalidated.2.abortTransitionWithDispatch env httpStopErr)
  else revalidated.2.granting env owner httpStopErr

/-- `stop_http`, with both locks free. -/
def stopHttp (s : ServiceEntry) (env : ServiceEnv) : ServiceEntry :=
  { s with core := env.meanwhile .stopHttp s.core }.optional env .stopHttp

/-- From the preparation to the steps: both locks are given back and the network's is taken again. -/
def enterTransition (s : ServiceEntry) (env : ServiceEnv) : ServiceEntry :=
  ((({ s with netMode := .serviceTransition }.optional env .unlockDispatch).optional env
    .unlockNet).stopHttp env).optional env .lockNet

end ServiceEntry

/-- `argus_net_mgr_orchestrate_service_entry`. -/
def orchestrateServiceEntry (env : ServiceEnv) (requestedOwner : AuthorityOwner) (s : ServiceEntry) :
    EspErr × ServiceEntry :=
  if ¬ env.valid then (espErrInvalidArg, s)
  else if requestedOwner ≠ .browser ∧ requestedOwner ≠ .diagnosticCli then (espErrInvalidArg, s)
  else
    let prepared := s.prepareTransition env
    if prepared.1 ≠ espOk then (prepared.1, prepared.2.fault)
    else
      let stepped := (prepared.2.enterTransition env).steps env serviceSteps
      if stepped.1 ≠ espOk then (stepped.1, stepped.2.abortTransition env env.httpStopErr)
      else stepped.2.grantPoint env requestedOwner env.httpStopErr

/-! ## What is promised -/

/-- The holds of a lock after some calls, from a caller that has it once. -/
def holds (lock unlock : ServiceHook) (calls : List (ServiceHook × EspErr)) : Int :=
  1 + calls.countP (·.1 = lock) - calls.countP (·.1 = unlock)

/-- How a way out has to look. -/
structure FailsClosed (owner : AuthorityOwner) (result : EspErr × ServiceEntry) : Prop where
  failed : result.1 ≠ espOk → result.2.core.mode = .none ∧ result.2.core.owner = .none ∧
    result.2.netMode = .networkFault
  entered : result.1 = espOk → result.2.core.mode = .localService ∧ result.2.core.owner = owner ∧
    (serviceSteps.map (·, espOk)).Sublist result.2.calls
  granted : ∀ l r, result.2.calls = l ++ (.grantLocal, espOk) :: r →
    holds .lockDispatch .unlockDispatch l = 1 ∧ (.revalidateNetwork, espOk) ∈ l
  net : holds .lockNet .unlockNet result.2.calls = 0
  dispatch : holds .lockDispatch .unlockDispatch result.2.calls = 0

/-! ## Calls -/

section Calls

variable {env : ServiceEnv} {s : ServiceEntry} {lock unlock hook : ServiceHook} {err : EspErr}

theorem holds_append (l r : List (ServiceHook × EspErr)) :
    holds lock unlock (l ++ r) = holds lock unlock l + holds lock unlock r - 1 := by
  unfold holds
  rw [List.countP_append, List.countP_append]
  push_cast
  omega

theorem holds_of_notMem {l : List (ServiceHook × EspErr)}
    (h : ∀ call ∈ l, call.1 ≠ lock ∧ call.1 ≠ unlock) : holds lock unlock l = 1 := by
  unfold holds
  rw [List.countP_eq_zero.mpr fun call hc => by simpa using (h call hc).1,
    List.countP_eq_zero.mpr fun call hc => by simpa using (h call hc).2]
  rfl

/-- The call of an optional hook, if it is there. -/
def ServiceEnv.called (env : ServiceEnv) (hook : ServiceHook) : List (ServiceHook × EspErr) :=
  if env.present hook then [(hook, env.answer hook)] else []

theorem hook_of_mem_called {call : ServiceHook × EspErr} (h : call ∈ env.called hook) :
    call.1 = hook := by
  unfold ServiceEnv.called at h
  split at h
  · rw [List.mem_singleton.mp h]
  · cases h

theorem holds_called_lock (hne : lock ≠ unlock) :
    holds lock unlock (env.called lock) = 1 + (env.present lock).toNat := by
  unfold ServiceEnv.called
  split
  · next hpresent => simp [holds, hne, hpresent]
  · next hmissing => simp [holds, hmissing]

theorem holds_called_unlock (hne : lock ≠ unlock) :
    holds lock unlock (env.called unlock) = 1 - (env.present unlock).toNat := by
  unfold ServiceEnv.called
  split
  · next hpresent => simp [holds, hne.symm, hpresent]
  · next hmissing => simp [holds, hmissing]

theorem holds_called_other (hlock : hook ≠ lock) (hunlock : hook ≠ unlock) :
    holds lock unlock (env.called hook) = 1 :=
  holds_of_notMem fun call hc => by
    rw [hook_of_mem_called hc]
    exact ⟨hlock, hunlock⟩

namespace ServiceEntry

@[simp] theorem log_calls : (s.log hook err).calls = s.calls ++ [(hook, err)] := rfl

@[simp] theorem log_core : (s.log hook err).core = s.core := rfl

@[simp] theorem log_netMode : (s.log hook err).netMode = s.netMode := rfl

@[simp] theorem optional_calls : (s.optional env hook).calls = s.calls ++ env.called hook := by
  unfold optional ServiceEnv.called
  split
  · rfl
  · rw [List.append_nil]

@[simp] theorem optional_core : (s.optional env hook).core = s.core := by
  unfold optional
  split <;> rfl

@[simp] theorem optional_netMode : (s.optional env hook).netMode = s.netMode := by
  unfold optional
  split <;> rfl

@[simp] theorem fault_calls : s.fault.calls = s.calls ++ [(.abortTransition, espOk)] := rfl

@[simp] theorem fault_core : s.fault.core = s.core.abortServiceTransition := rfl

@[simp] theorem fault_netMode : s.fault.netMode = .networkFault := rfl

/-- What follows `unlock_net` in `abort_restore_http`. -/
theorem abortRestoreHttp_calls (httpStopErr : EspErr) :
    ∃ restored, (∀ call ∈ restored, call.1 = .startHttp) ∧
      (s.abortRestoreHttp env httpStopErr).calls = s.calls ++ env.called .unlockNet ++ restored := by
  unfold abortRestoreHttp
  split
  · refine ⟨env.called .startHttp, fun call hc => hook_of_mem_called hc, ?_⟩
    rw [optional_calls, optional_calls]
  · refine ⟨[], fun call hc => absurd hc List.not_mem_nil, ?_⟩
    rw [optional_calls, List.append_nil]

@[simp] theorem abortRestoreHttp_core (httpStopErr : EspErr) :
    (s.abortRestoreHttp env httpStopErr).core = s.core := by
  unfold abortRestoreHttp
  split <;> simp

@[simp] theorem abortRestoreHttp_netMode (httpStopErr : EspErr) :
    (s.abortRestoreHttp env httpStopErr).netMode = s.netMode := by
  unfold abortRestoreHttp
  split <;> simp

/-- **The steps**: all are called and succeed, or those up to one that fails are. -/
theorem steps_spec (env : ServiceEnv) (hooks : List ServiceHook) (s : ServiceEntry) :
    ((∀ hook ∈ hooks, env.answer hook = espOk) ∧ (s.steps env hooks).1 = espOk ∧
      (s.steps env hooks).2.core = hooks.foldl (fun core hook => env.meanwhile hook core) s.core ∧
      (s.steps env hooks).2.calls = s.calls ++ hooks.map (·, espOk)) ∨
    ((∃ hook ∈ hooks, env.answer hook ≠ espOk) ∧ (s.steps env hooks).1 ≠ espOk ∧
      ∃ called, (∀ call ∈ called, call.1 ∈ hooks) ∧ (s.steps env hooks).2.calls = s.calls ++ called) := by
  induction hooks generalizing s with
  | nil =>
    left
    refine ⟨fun hook hh => absurd hh List.not_mem_nil, rfl, rfl, ?_⟩
    rw [List.map_nil, List.append_nil]
    rfl
  | cons hook hooks ih =>
    unfold steps
    dsimp only
    by_cases hok : env.answer hook = espOk
    · rw [if_neg (not_not.mpr hok)]
      rcases ih ({ s with core := env.meanwhile hook s.core }.log hook (env.answer hook)) with
        ⟨hall, herr, hcore, hcalls⟩ | ⟨⟨bad, hbad, hne⟩, herr, called, hcalled, hcalls⟩
      · left
        refine ⟨fun h hh => ?_, herr, hcore, ?_⟩
        · rcases List.mem_cons.mp hh with rfl | hh
          · exact hok
          · exact hall h hh
        · rw [hcalls, log_calls, List.append_assoc, List.map_cons, hok]
          rfl
      · right
        refine ⟨⟨bad, List.mem_cons_of_mem _ hbad, hne⟩, herr, (hook, espOk) :: called, ?_, ?_⟩
        · intro call hc
          rcases List.mem_cons.mp hc with rfl | hc
          · exact List.mem_cons_self
          · exact List.mem_cons_of_mem _ (hcalled call hc)
        · rw [hcalls, log_calls, List.append_assoc, hok]
          rfl
    · rw [if_pos hok]
      right
      refine ⟨⟨hook, List.mem_cons_self, hok⟩, hok, [(hook, env.answer hook)], ?_, log_calls⟩
      intro call hc
      rw [List.mem_singleton.mp hc]
      exact List.mem_cons_self

end ServiceEntry

/-! ## The ways out -/

/-- The calls before the steps. -/
def ServiceEnv.enterCalls (env : ServiceEnv) : List (ServiceHook × EspErr) :=
  [(.prepareTransition, espOk)] ++ env.called .unlockDispatch ++ env.called .unlockNet ++
    env.called .stopHttp ++ env.called .lockNet

/-- A revalidation that does not fail. -/
def ServiceEnv.revalidated (env : ServiceEnv) : List (ServiceHook × EspErr) :=
  if env.present .revalidateNetwork then [(.revalidateNetwork, espOk)] else []

theorem revalidated_of_mem {call : ServiceHook × EspErr} (h : call ∈ env.revalidated) :
    call.1 = .revalidateNetwork ∧ env.present .revalidateNetwork = true := by
  unfold ServiceEnv.revalidated at h
  split at h
  · next hpresent =>
    rw [List.mem_singleton.mp h]
    exact ⟨rfl, hpresent⟩
  · cases h

/-- The calls between the steps and `grant_local`. -/
def ServiceEnv.grantCalls (env : ServiceEnv) : List (ServiceHook × EspErr) :=
  env.called .lockDispatch ++ env.revalidated

/-- The core when the steps are done. -/
def ServiceEnv.coreAtGrant (env : ServiceEnv) (core : AuthorityCore) : AuthorityCore :=
  serviceSteps.foldl (fun core hook => env.meanwhile hook core)
    (env.meanwhile .stopHttp core.prepareServiceTransition.2)

/-- `grant_local` goes through if it is called. -/
def ServiceEnv.grants (env : ServiceEnv) (core : AuthorityCore) : Prop :=
  env.answer .grantLocal = espOk ∧ (env.coreAtGrant core).mode = .serviceTransition

/-- An error comes with `NONE/NONE` and `NETWORK_FAULT`. -/
def Faulted (result : EspErr × ServiceEntry) : Prop :=
  result.1 ≠ espOk ∧ result.2.core.mode = .none ∧ result.2.core.owner = .none ∧
    result.2.netMode = .networkFault

/-- The ways out, for a local owner and tables that are accepted. -/
inductive ServicePath (env : ServiceEnv) (owner : AuthorityOwner) (core : AuthorityCore)
    (result : EspErr × ServiceEntry) : Prop
  | unprepared : env.answer .prepareTransition ≠ espOk →
      result.2.calls = [(.prepareTransition, env.answer .prepareTransition), (.abortTransition, espOk)] →
      ServicePath env owner core result
  /-- A step fails. -/
  | stopped {called restored : List (ServiceHook × EspErr)} {hook : ServiceHook} :
      env.answer .prepareTransition = espOk → hook ∈ serviceSteps → env.answer hook ≠ espOk →
      Faulted result → (∀ call ∈ called, call.1 ∈ serviceSteps) →
      (∀ call ∈ restored, call.1 = .startHttp) →
      result.2.calls = env.enterCalls ++ called ++ [(.abortTransition, espOk)] ++
        env.called .unlockNet ++ restored →
      ServicePath env owner core result
  /-- Revalidation or `grant_local` fails. -/
  | refused {tried restored : List (ServiceHook × EspErr)} :
      env.answer .prepareTransition = espOk → (∀ hook ∈ serviceSteps, env.answer hook = espOk) →
      (env.grants core → env.present .revalidateNetwork = true) →
      Faulted result → (∀ call ∈ tried, call.1 = .revalidateNetwork ∨
        call.1 = .grantLocal ∧ call.2 ≠ espOk) →
      (∀ call ∈ restored, call.1 = .startHttp) →
      result.2.calls = env.enterCalls ++ serviceSteps.map (·, espOk) ++ env.called .lockDispatch ++ tried ++
        [(.abortTransition, espOk)] ++ env.called .unlockDispatch ++ env.called .unlockNet ++ restored →
      ServicePath env owner core result
  | entered : env.answer .prepareTransition = espOk →
      (∀ hook ∈ serviceSteps, env.answer hook = espOk) → env.grants core →
      result.1 = espOk → result.2.core.mode = .localService → result.2.core.owner = owner →
      result.2.calls = env.enterCalls ++ serviceSteps.map (·, espOk) ++ env.grantCalls ++
        (.grantLocal, espOk) :: (env.called .unlockDispatch ++ env.called .unlockNet ++
          env.called .startHttp) →
      ServicePath env owner core result

namespace ServiceEntry

theorem abortTransition_faulted (httpStopErr : EspErr) {err : EspErr} (h : err ≠ espOk) :
    Faulted (err, s.abortTransition env httpStopErr) := by
  unfold abortTransition
  refine ⟨h, ?_, ?_, ?_⟩ <;> simp

theorem abortTransitionWithDispatch_faulted (httpStopErr : EspErr) {err : EspErr} (h : err ≠ espOk) :
    Faulted (err, s.abortTransitionWithDispatch env httpStopErr) := by
  unfold abortTransitionWithDispatch
  refine ⟨h, ?_, ?_, ?_⟩ <;> simp

theorem abortTransitionWithDispatch_calls (httpStopErr : EspErr) :
    ∃ restored, (∀ call ∈ restored, call.1 = .startHttp) ∧
      (s.abortTransitionWithDispatch env httpStopErr).calls = s.calls ++ [(.abortTransition, espOk)] ++
        env.called .unlockDispatch ++ env.called .unlockNet ++ restored := by
  obtain ⟨restored, hrestored, hcalls⟩ :=
    @abortRestoreHttp_calls env (s.fault.optional env .unlockDispatch) httpStopErr
  refine ⟨restored, hrestored, ?_⟩
  unfold abortTransitionWithDispatch
  rw [hcalls, optional_calls, fault_calls]

end ServiceEntry

/-- The calls and the core of an entry whose preparation succeeds. -/
theorem enterTransition_prepared (env : ServiceEnv) (core : AuthorityCore) (netMode : NetworkMode)
    (h : env.answer .prepareTransition = espOk) :
    ((⟨core, netMode, []⟩ : ServiceEntry).prepareTransition env).1 = espOk ∧
      (((⟨core, netMode, []⟩ : ServiceEntry).prepareTransition env).2.enterTransition env).calls =
        env.enterCalls ∧
      (((⟨core, netMode, []⟩ : ServiceEntry).prepareTransition env).2.enterTransition env).core =
        env.meanwhile .stopHttp core.prepareServiceTransition.2 := by
  unfold ServiceEntry.prepareTransition
  dsimp only
  rw [if_neg (not_not.mpr h)]
  refine ⟨rfl, ?_, ?_⟩
  · unfold ServiceEntry.enterTransition ServiceEntry.stopHttp ServiceEnv.enterCalls
    simp only [ServiceEntry.optional_calls, ServiceEntry.log_calls]
    rfl
  · unfold ServiceEntry.enterTransition ServiceEntry.stopHttp
    simp only [ServiceEntry.optional_core]
    rfl

/-- `grant_local` fails without a grant, or grants what was prepared. -/
theorem grantLocal_spec (env : ServiceEnv) {owner : AuthorityOwner}
    (h : owner = .browser ∨ owner = .diagnosticCli) (s : ServiceEntry) :
    (env.answer .grantLocal = espOk ∧ s.core.mode = .serviceTransition ∧
      (s.grantLocal env owner).1 = espOk ∧ (s.grantLocal env owner).2.core.mode = .localService ∧
      (s.grantLocal env owner).2.core.owner = owner ∧
      (s.grantLocal env owner).2.calls = s.calls ++ [(.grantLocal, espOk)]) ∨
    (¬ (env.answer .grantLocal = espOk ∧ s.core.mode = .serviceTransition) ∧ ∃ err ≠ espOk,
      (s.grantLocal env owner).1 = err ∧
      (s.grantLocal env owner).2.calls = s.calls ++ [(.grantLocal, err)]) := by
  unfold ServiceEntry.grantLocal
  dsimp only
  by_cases hanswer : env.answer .grantLocal = espOk
  · rw [if_neg (not_not.mpr hanswer), AuthorityCore.grantLocalService_eq _ h]
    by_cases hmode : s.core.mode = .serviceTransition
    · rw [if_pos hmode]
      exact .inl ⟨hanswer, hmode, rfl, rfl, rfl, rfl⟩
    · rw [if_neg hmode]
      exact .inr ⟨fun hgrant => hmode hgrant.2, espErrInvalidState, by decide, rfl, rfl⟩
  · rw [if_pos hanswer]
    exact .inr ⟨fun hgrant => hanswer hgrant.1, env.answer .grantLocal, hanswer, rfl, rfl⟩

/-- The way out from where revalidation has not failed. -/
theorem granting_path {env : ServiceEnv} {owner : AuthorityOwner} {core : AuthorityCore}
    {r : ServiceEntry} (httpStopErr : EspErr) (howner : owner = .browser ∨ owner = .diagnosticCli)
    (hprepare : env.answer .prepareTransition = espOk)
    (hsteps : ∀ hook ∈ serviceSteps, env.answer hook = espOk) (hcore : r.core = env.coreAtGrant core)
    (hcalls : r.calls = env.enterCalls ++ serviceSteps.map (·, espOk) ++ env.grantCalls) :
    ServicePath env owner core (r.granting env owner httpStopErr) := by
  unfold ServiceEntry.granting
  dsimp only
  rcases grantLocal_spec env howner r with
    ⟨hanswer, hmode, herr, hlocal, hown, hgcalls⟩ | ⟨hno, err, hne, herr, hgcalls⟩
  · rw [if_neg (not_not.mpr herr)]
    rw [hcore] at hmode
    refine .entered hprepare hsteps ⟨hanswer, hmode⟩ rfl ?_ ?_ ?_
    · simpa using hlocal
    · simpa using hown
    · simp only [ServiceEntry.optional_calls, hgcalls, hcalls, List.append_assoc, List.cons_append,
        List.nil_append]
  · rw [if_pos (by rw [herr]; exact hne)]
    obtain ⟨restored, hrestored, habort⟩ := @ServiceEntry.abortTransitionWithDispatch_calls
      env (r.grantLocal env owner).2 httpStopErr
    rw [hcore] at hno
    refine @ServicePath.refused _ _ _ _ (env.revalidated ++ [(.grantLocal, err)]) restored hprepare
      hsteps (fun hgrants => absurd hgrants hno)
      (ServiceEntry.abortTransitionWithDispatch_faulted httpStopErr (by rw [herr]; exact hne)) ?_
      hrestored ?_
    · intro call hc
      rcases List.mem_append.mp hc with hc | hc
      · exact .inl (revalidated_of_mem hc).1
      · rw [List.mem_singleton.mp hc]
        exact .inr ⟨rfl, hne⟩
    · dsimp only
      rw [habort, hgcalls, hcalls]
      simp only [ServiceEnv.grantCalls, List.append_assoc]

/-- The way out from where all steps have succeeded. -/
theorem grantPoint_path {env : ServiceEnv} {owner : AuthorityOwner} {core : AuthorityCore}
    {s : ServiceEntry} (httpStopErr : EspErr) (howner : owner = .browser ∨ owner = .diagnosticCli)
    (hprepare : env.answer .prepareTransition = espOk)
    (hsteps : ∀ hook ∈ serviceSteps, env.answer hook = espOk)
    (hcore : s.core = env.coreAtGrant core)
    (hcalls : s.calls = env.enterCalls ++ serviceSteps.map (·, espOk)) :
    ServicePath env owner core (s.grantPoint env owner httpStopErr) := by
  unfold ServiceEntry.grantPoint ServiceEntry.revalidate
  dsimp only
  by_cases hpresent : env.present .revalidateNetwork = true
  · rw [if_pos hpresent]
    dsimp only
    by_cases hok : env.answer .revalidateNetwork = espOk
    · rw [if_neg (not_not.mpr hok)]
      refine granting_path httpStopErr howner hprepare hsteps ?_ ?_
      · rw [ServiceEntry.log_core, ServiceEntry.optional_core, hcore]
      · rw [ServiceEntry.log_calls, ServiceEntry.optional_calls, hok, hcalls, ServiceEnv.grantCalls,
          ServiceEnv.revalidated, if_pos hpresent]
        simp only [List.append_assoc]
    · rw [if_pos hok]
      obtain ⟨restored, hrestored, habort⟩ := @ServiceEntry.abortTransitionWithDispatch_calls
        env ((s.optional env .lockDispatch).log .revalidateNetwork
          (env.answer .revalidateNetwork)) httpStopErr
      refine @ServicePath.refused _ _ _ _ [(.revalidateNetwork, env.answer .revalidateNetwork)]
        restored hprepare hsteps (fun _ => hpresent)
        (ServiceEntry.abortTransitionWithDispatch_faulted httpStopErr hok) ?_ hrestored ?_
      · intro call hc
        rw [List.mem_singleton.mp hc]
        exact .inl rfl
      · dsimp only
        rw [habort, ServiceEntry.log_calls, ServiceEntry.optional_calls, hcalls]
  · rw [if_neg hpresent]
    dsimp only
    rw [if_neg (not_not.mpr rfl)]
    refine granting_path httpStopErr howner hprepare hsteps ?_ ?_
    · rw [ServiceEntry.optional_core, hcore]
    · rw [ServiceEntry.optional_calls, hcalls, ServiceEnv.grantCalls, ServiceEnv.revalidated,
        if_neg hpresent, List.append_nil]

/-- **The ways out.** -/
theorem orchestrateServiceEntry_path {env : ServiceEnv} {owner : AuthorityOwner}
    (core : AuthorityCore) (netMode : NetworkMode) (hvalid : env.valid = true)
    (howner : owner = .browser ∨ owner = .diagnosticCli) :
    ServicePath env owner core (orchestrateServiceEntry env owner ⟨core, netMode, []⟩) := by
  have hlocal : ¬ (owner ≠ .browser ∧ owner ≠ .diagnosticCli) := by
    rintro ⟨hbrowser, hcli⟩
    exact howner.elim hbrowser hcli
  unfold orchestrateServiceEntry
  rw [if_neg (not_not.mpr hvalid), if_neg hlocal]
  dsimp only
  by_cases hprepare : env.answer .prepareTransition = espOk
  · obtain ⟨herr, hcalls, hcore⟩ := enterTransition_prepared env core netMode hprepare
    rw [if_neg (not_not.mpr herr)]
    generalize ((⟨core, netMode, []⟩ : ServiceEntry).prepareTransition env).2.enterTransition env = s
      at hcalls hcore
    rcases ServiceEntry.steps_spec env serviceSteps s with
      ⟨hall, hok, hstepped, hscalls⟩ | ⟨⟨hook, hmem, hne⟩, hbad, called, hcalled, hscalls⟩
    · rw [if_neg (not_not.mpr hok)]
      refine grantPoint_path _ howner hprepare hall ?_ ?_
      · rw [hstepped, hcore]
        rfl
      · rw [hscalls, hcalls]
    · rw [if_pos hbad]
      obtain ⟨restored, hrestored, habort⟩ := @ServiceEntry.abortRestoreHttp_calls
        env (s.steps env serviceSteps).2.fault env.httpStopErr
      refine .stopped hprepare hmem hne (ServiceEntry.abortTransition_faulted _ hbad) hcalled hrestored ?_
      unfold ServiceEntry.abortTransition
      dsimp only
      rw [habort, ServiceEntry.fault_calls, hscalls, hcalls]
  · have hunprepared : ((⟨core, netMode, []⟩ : ServiceEntry).prepareTransition env).1 =
        env.answer .prepareTransition := by
      unfold ServiceEntry.prepareTransition
      dsimp only
      rw [if_pos hprepare]
    rw [if_pos (by rw [hunprepared]; exact hprepare)]
    refine .unprepared hprepare ?_
    dsimp only
    rw [ServiceEntry.fault_calls, ← hunprepared]
    rfl

end Calls

end Argus
