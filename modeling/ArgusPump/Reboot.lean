import ArgusPump.FactoryReset
import ArgusPump.PlantTasks

/-!
# Reboots of a sealed machine

The transactions of the network manager's task that end in `esp_restart`, made while the other
tasks go on: `argus_restart_execute` of `main/argus_restart_mgr.c` and `argus_factory_reset_execute`,
with their production tables.

    rebooted or erased is only a machine that has been sealed off since it was shown stopped
      with the dispatch mutex held, unless another task has given out the authority since
    the dispatch mutex is given back, with the authority as it was found or nobody's
                                                      (restart_seals, factory_reset_seals)
-/

namespace Argus

open Interact
open Prog (Exec Asks)

/-! ## A restart -/

/-- The entries of `argus_restart_ops_t`. -/
inductive RestartOp
  | getStateSnapshot | lockDispatch | unlockDispatch | revokeAuthority | responseGraceDelay | stopHttp
  | reboot
deriving DecidableEq

def RestartOp.all : List RestartOp :=
  [.getStateSnapshot, .revokeAuthority, .responseGraceDelay, .stopHttp, .reboot, .lockDispatch,
    .unlockDispatch]

abbrev RestartOp.Answer : RestartOp → Type
  | .getStateSnapshot => StateSnapshot
  | .revokeAuthority | .stopHttp => EspErr
  | .lockDispatch | .unlockDispatch | .responseGraceDelay | .reboot => Unit

/-- `argus_restart_step_t`; `none` is the `0` of a restart that got to its end. -/
inductive RestartStep
  | none | lockDispatch | preflightSafety | revokeAuthority | unlockDispatch | responseGrace | stopHttp
  | finalSafety | reboot
deriving DecidableEq

/-- `argus_restart_result_t`. -/
structure RestartResult where
  accepted : Bool
  failedAtStep : RestartStep
  dispatchLocked : Bool
  authorityRevoked : Bool
  httpStopped : Bool
  rebootCalled : Bool
deriving DecidableEq

/-- `argus_restart_is_safe`. -/
def restartIsSafe (snap : StateSnapshot) : Bool :=
  if snap.estopLatched then false
  else if snap.machineState = .emergencyStopped then false
  else if snap.machineState = .faulted then false
  else snap.machineState = .holding || snap.machineState = .unlocked

abbrev RestartProg := Prog RestartOp RestartOp.Answer

namespace Restart

def call (q : RestartOp) : RestartProg q.Answer := .ask q .ret

/-- From the grace delay on, with the authority revoked. -/
def proceed (result : RestartResult) : RestartProg RestartResult := do
  call .responseGraceDelay
  let err ← call .stopHttp
  if err ≠ espOk then return { result with failedAtStep := .stopHttp }
  let result := { result with httpStopped := true }
  let snap ← call .getStateSnapshot
  if ¬ restartIsSafe snap then return { result with failedAtStep := .finalSafety }
  call .reboot
  return { result with accepted := true, rebootCalled := true }

end Restart

open Restart in
/-- `argus_restart_execute`, over a table with the entries that `present` has. -/
def restartExecute (present : RestartOp → Bool) : RestartProg RestartResult := do
  let result : RestartResult := ⟨false, .none, false, false, false, false⟩
  if ¬ RestartOp.all.all present then return { result with failedAtStep := .preflightSafety }
  call .lockDispatch
  let result := { result with dispatchLocked := true }
  let snap ← call .getStateSnapshot
  if ¬ restartIsSafe snap then
    call .unlockDispatch
    return { result with failedAtStep := .preflightSafety, dispatchLocked := false }
  let err ← call .revokeAuthority
  if err ≠ espOk then
    call .unlockDispatch
    return { result with failedAtStep := .revokeAuthority, dispatchLocked := false }
  let result := { result with authorityRevoked := true }
  call .unlockDispatch
  proceed { result with dispatchLocked := false }

/-- The production operations, called by task `t` of a running controller. -/
def RestartAnswers {cfg : ArgusConfig} {gen : StepGen} (t : Nat) :
    (q : RestartOp) → PlantRun cfg gen → q.Answer → PlantRun cfg gen → Prop
  | .getStateSnapshot, w, snap, w' => TaskSees t w snap w'
  | .lockDispatch, w, _, w' => TaskActs t w .lockDispatch w'
  | .unlockDispatch, w, _, w' => TaskActs t w .unlockDispatch w'
  | .revokeAuthority, w, err, w' => TaskSets t w .none .none err w'
  | .responseGraceDelay, w, _, w' => Meanwhile t w w'
  | .stopHttp, w, _, w' => Meanwhile t w w'
  | .reboot, w, _, w' => Meanwhile t w w'

section Restart

variable {cfg : ArgusConfig} {gen : StepGen} {t : Nat} {w₀ w : PlantRun cfg gen}

theorem stopped_of_safe {snap : StateSnapshot} (h : restartIsSafe snap = true) :
    snap.estopLatched = false ∧ (snap.machineState = .unlocked ∨ snap.machineState = .holding) := by
  unfold restartIsSafe at h
  split at h
  · cases h
  next hlatch =>
  split at h
  · cases h
  split at h
  · cases h
  rw [Bool.or_eq_true, decide_eq_true_eq, decide_eq_true_eq] at h
  exact ⟨Bool.eq_false_iff.mpr hlatch, h.symm⟩

/-- What a reboot is of. -/
structure RebootsSealed (t : Nat) (w₀ w : PlantRun cfg gen) : Prop where
  revoked : InPhase t (Revoked w₀) .idle w
  pending : w.now.machine.pending = none
  stopped : w.now.machine.core.machineState = .unlocked ∨ w.now.machine.core.machineState = .holding
  latch : w.now.machine.core.estopLatched = false
  atRest : w.now.machine.traj.AtRest

/-- How a restart ends. -/
def RestartEnds (t : Nat) (w₀ : PlantRun cfg gen) (result : RestartResult) (w : PlantRun cfg gen) : Prop :=
  result.dispatchLocked = false ∧ result.rebootCalled = result.accepted ∧
    (result.authorityRevoked = false ∧ result.accepted = false ∧ InPhase t (Untouched t w₀) .idle w ∨
      result.authorityRevoked = true ∧ InPhase t (Revoked w₀) .idle w)

theorem proceed_wpS {result : RestartResult} (hrevoked : InPhase t (Revoked w₀) .idle w)
    (hresult : result = ⟨false, .none, false, true, false, false⟩) :
    (Restart.proceed result).wpS (RestartAnswers t) (fun q u => q = .reboot → RebootsSealed t w₀ u)
      (RestartEnds t w₀) w := by
  subst hresult
  refine ⟨nofun, fun _ w₁ hgrace => ⟨nofun, fun err w₂ hstop => ?_⟩⟩
  have h₂ := (hrevoked.meanwhile hgrace).meanwhile hstop
  change Prog.wpS _ _ _ (if err ≠ espOk then _ else _) w₂
  split
  · exact ⟨rfl, rfl, .inr ⟨rfl, h₂⟩⟩
  refine ⟨nofun, fun snap w₃ hsees => ?_⟩
  have h₃ := h₂.meanwhile hsees.1
  change Prog.wpS _ _ _ (if ¬ restartIsSafe snap = true then _ else _) w₃
  split
  · exact ⟨rfl, rfl, .inr ⟨rfl, h₃⟩⟩
  next hsafe =>
  obtain ⟨hlatch, hstate⟩ := stopped_of_safe (not_not.mp hsafe)
  obtain ⟨-, hpend, hshown, hshownLatch⟩ := hsees
  rw [hshown] at hstate
  rw [hshownLatch] at hlatch
  refine ⟨fun _ => ⟨h₃, hpend, hstate, hlatch, w₃.ok.atRest hpend hstate⟩, fun _ w₄ hreboot => ?_⟩
  exact ⟨rfl, rfl, .inr ⟨rfl, h₃.meanwhile hreboot⟩⟩

theorem restartExecute_wpS (present : RestartOp → Bool) (hidle : w₀.now.router.task t = .idle) :
    (restartExecute present).wpS (RestartAnswers t) (fun q u => q = .reboot → RebootsSealed t w₀ u)
      (RestartEnds t w₀) w₀ := by
  have hstart := Begun.start hidle
  unfold restartExecute
  dsimp only
  split
  · exact ⟨rfl, rfl, .inl ⟨rfl, rfl, hstart⟩⟩
  refine ⟨nofun, fun _ w₁ hlock => ⟨nofun, fun snap w₂ hsees => ?_⟩⟩
  have h₁ := hstart.lock hlock
  have h₂ := h₁.meanwhile hsees.1
  change Prog.wpS _ _ _ (if ¬ restartIsSafe snap = true then _ else _) w₂
  split
  · refine ⟨nofun, fun _ w₃ hunlock => ?_⟩
    exact ⟨rfl, rfl, .inl ⟨rfl, rfl, h₂.unlock hunlock⟩⟩
  next hsafe =>
  obtain ⟨-, hstate⟩ := stopped_of_safe (not_not.mp hsafe)
  have hsince := sealedSince_of_sees h₁.task hsees hstate
  rw [hsees.2.2.1] at hstate
  refine ⟨nofun, fun err w₃ hsets => ?_⟩
  obtain ⟨herr, h₃⟩ :=
    revoked_of_sets h₂.holds.1 (before_refl w₂) hstate h₂.task hsince hsets (.inl rfl) rfl
  change Prog.wpS _ _ _ (if err ≠ espOk then _ else _) w₃
  rw [if_neg (not_not.mpr herr)]
  refine ⟨nofun, fun _ w₄ hunlock => ?_⟩
  exact proceed_wpS (h₃.unlock hunlock) rfl

/-- It gets to the reboot where nothing is in its way. -/
theorem restart_reboots (hidle : w₀.now.router.task t = .idle)
    (hfree : w₀.now.router.dispatchMutex = none) (hpend : w₀.now.machine.pending = none)
    (hstopped : w₀.now.machine.core.machineState = .unlocked ∨
      w₀.now.machine.core.machineState = .holding)
    (hlatch : w₀.now.machine.core.estopLatched = false) :
    ∃ tr u, Asks (RestartAnswers t) (restartExecute fun _ => true) w₀ tr .reboot u := by
  obtain ⟨w₁, hlock, htask₁, -, hmachine₁⟩ := taskLocks_alone hidle hfree
  obtain ⟨w₂, hsets, htask₂, -, hmachine₂⟩ := taskSets_alone .none .none htask₁
  obtain ⟨w₃, hunlock, -, -, -, hmachine₃⟩ := taskUnlocks_alone htask₂
  let snap : StateSnapshot := ⟨w₀.now.machine.core.machineState, 0, 0, false, false, 0⟩
  have hsafe : restartIsSafe snap = true := by
    unfold restartIsSafe
    rcases hstopped with h | h <;> simp [snap, h]
  have hsees (w : PlantRun cfg gen) (hmachine : w.now.machine = w₀.now.machine) : TaskSees t w snap w :=
    taskSees_alone (by rw [hmachine, hpend]) (by rw [hmachine]) (by rw [hmachine, hlatch])
  have hsees₁ := hsees w₁ hmachine₁
  have hsees₃ := hsees w₃ (by rw [hmachine₃, hmachine₂, hmachine₁])
  have hasks : ∃ tr, Asks (RestartAnswers t) (restartExecute fun _ => true) w₀ tr .reboot w₃ := by
    unfold restartExecute
    dsimp only
    rw [if_neg (by decide)]
    refine Asks.after (r := ()) hlock (Asks.after hsees₁ ?_)
    change ∃ _, Asks _ (if ¬ restartIsSafe snap = true then _ else _) _ _ _ _
    rw [if_neg (not_not.mpr hsafe)]
    refine Asks.after hsets (Asks.after (r := ()) hunlock (Asks.after (r := ()) (.refl w₃)
      (Asks.after (r := espOk) (.refl w₃) (Asks.after hsees₃ ?_))))
    change ∃ _, Asks _ (if ¬ restartIsSafe snap = true then _ else _) _ _ _ _
    rw [if_neg (not_not.mpr hsafe)]
    exact ⟨_, .here⟩
  obtain ⟨tr, hasks⟩ := hasks
  exact ⟨tr, w₃, hasks⟩

end Restart

/-! ## A factory reset -/

/-- The production operations of a factory reset, called by task `t` of a running controller. -/
def FactoryResetAnswers {cfg : ArgusConfig} {gen : StepGen} (t : Nat) :
    (q : FactoryResetOp) → PlantRun cfg gen → q.Answer → PlantRun cfg gen → Prop
  | .lockLifecycle, w, _, w' => Meanwhile t w w'
  | .unlockLifecycle, w, _, w' => Meanwhile t w w'
  | .lockDispatch, w, _, w' => TaskActs t w .lockDispatch w'
  | .unlockDispatch, w, _, w' => TaskActs t w .unlockDispatch w'
  | .getNetworkSnapshot, w, _, w' => Meanwhile t w w'
  | .getAuthoritySnapshot, w, answer, w' =>
    Meanwhile t w w' ∧ answer = (espOk, w'.now.router.authority)
  | .getStateSnapshot, w, snap, w' => TaskSees t w snap w'
  | .beginTransition, w, err, w' => TaskSets t w .serviceTransition .none err w'
  | .responseGraceDelay, w, _, w' => Meanwhile t w w'
  | .stopHttp, w, _, w' => Meanwhile t w w'
  | .revokeAuthority, w, err, w' => TaskSets t w .none .none err w'
  | .eraseConfiguration, w, _, w' => Meanwhile t w w'
  | .reboot, w, _, w' => Meanwhile t w w'

section FactoryReset

open FactoryReset

variable {cfg : ArgusConfig} {gen : StepGen} {t : Nat} {w₀ w w' w'' : PlantRun cfg gen}
  {result : FactoryResetResult}

theorem stopped_of_stationary {state : StateSnapshot} (h : stateIsStationarySafe state = true) :
    state.machineState = .unlocked ∨ state.machineState = .holding := by
  unfold stateIsStationarySafe at h
  simp only [Bool.and_eq_true, Bool.or_eq_true, beq_iff_eq] at h
  exact h.1.1.1.2

theorem stationary_of_policy {net : NetSnapshot} {authority : AuthoritySnapshot} {state : StateSnapshot}
    {conflict : Bool} (h : factoryResetEvaluatePolicy net authority state conflict = .ok) :
    stateIsStationarySafe state = true := by
  unfold factoryResetEvaluatePolicy at h
  split at h
  · cases h
  split at h
  · cases h
  split at h
  · cases h
  split at h
  · cases h
  next hstationary => exact not_not.mp hstationary

/-- What is erased, and rebooted, is sealed. -/
def ErasesSealed (t : Nat) (w₀ : PlantRun cfg gen) : FactoryResetOp → PlantRun cfg gen → Prop
  | .eraseConfiguration, w | .reboot, w => InPhase t (Revoked w₀) .idle w
  | _, _ => True

/-- How a factory reset ends. -/
def ResetEnds (t : Nat) (w₀ : PlantRun cfg gen) (result : FactoryResetResult) (w : PlantRun cfg gen) :
    Prop :=
  result.accepted = false ∧ result.configurationErased = false ∧ InPhase t (Untouched t w₀) .idle w ∨
    InPhase t (Revoked w₀) .idle w

theorem snapshots_wpS (w : PlantRun cfg gen) :
    snapshots.wpS (FactoryResetAnswers t) (ErasesSealed t w₀)
      (fun r w' => Meanwhile t w w' ∧ ∀ net authority state, r = .ok (net, authority, state) →
        TaskSees t w state w') w := by
  refine ⟨trivial, fun answer w₁ h₁ => ?_⟩
  change Prog.wpS _ _ _ (if answer.1 ≠ espOk then _ else _) w₁
  split
  · exact ⟨h₁, fun _ _ _ heq => nomatch heq⟩
  refine ⟨trivial, fun answer' w₂ h₂ => ?_⟩
  change Prog.wpS _ _ _ (if answer'.1 ≠ espOk then _ else _) w₂
  split
  · exact ⟨h₁.trans h₂.1, fun _ _ _ heq => nomatch heq⟩
  refine ⟨trivial, fun state w₃ h₃ => ?_⟩
  have hm := (h₁.trans h₂.1).trans h₃.1
  refine ⟨hm, fun net authority state' heq => ?_⟩
  cases heq
  exact ⟨hm, h₃.2⟩

theorem unlock_begun_wpS (h : InPhase t (Untouched t w₀) .transition w)
    (haccepted : result.accepted = false) (herased : result.configurationErased = false) :
    (unlock result).wpS (FactoryResetAnswers t) (ErasesSealed t w₀) (ResetEnds t w₀) w := by
  refine ⟨trivial, fun _ w₁ h₁ => ⟨trivial, fun _ w₂ h₂ => ?_⟩⟩
  exact .inl ⟨haccepted, herased, (h.unlock h₁).meanwhile h₂⟩

theorem unlock_revoked_wpS (h : InPhase t (Revoked w₀) .transition w) (result : FactoryResetResult) :
    (unlock result).wpS (FactoryResetAnswers t) (ErasesSealed t w₀)
      (fun result' w' => result' = result ∧ InPhase t (Revoked w₀) .idle w') w := by
  refine ⟨trivial, fun _ w₁ h₁ => ⟨trivial, fun _ w₂ h₂ => ?_⟩⟩
  exact ⟨rfl, (h.unlock h₁).meanwhile h₂⟩

/-- Anything but an erase or a reboot is made by a transaction that ends sealed. -/
theorem unlock_ends_wpS (h : InPhase t (Revoked w₀) .transition w) (result : FactoryResetResult) :
    (unlock result).wpS (FactoryResetAnswers t) (ErasesSealed t w₀) (ResetEnds t w₀) w :=
  Prog.wpS_mono (fun _ _ h => h) (fun _ _ h => .inr h.2) _ _ (unlock_revoked_wpS h result)

theorem erase_wpS (h : InPhase t (Revoked w₀) .idle w) :
    (erase result).wpS (FactoryResetAnswers t) (ErasesSealed t w₀) (ResetEnds t w₀) w := by
  refine ⟨h, fun error w₁ h₁ => ?_⟩
  have h₁' := h.meanwhile h₁
  change Prog.wpS _ _ _ (if error ≠ espOk then _ else _) w₁
  split
  · exact .inr h₁'
  · exact ⟨h₁', fun _ w₂ h₂ => .inr (h₁'.meanwhile h₂)⟩

theorem finish_wpS (h : InPhase t (Revoked w₀) .idle w) :
    (finish result).wpS (FactoryResetAnswers t) (ErasesSealed t w₀) (ResetEnds t w₀) w := by
  refine ⟨trivial, fun error w₁ h₁ => ?_⟩
  have hrevoked₁ := h.meanwhile h₁
  change Prog.wpS _ _ _ (if error ≠ espOk then _ else _) w₁
  split
  · exact .inr hrevoked₁
  refine ⟨trivial, fun _ w₂ h₂ => ?_⟩
  have hrevoked₂ := hrevoked₁.lock h₂
  change Prog.wpS _ _ _ (snapshots >>= _) w₂
  refine (Prog.wpS_bind _ _ _ _ _).mpr
    (Prog.wpS_mono (fun _ _ h => h) (fun taken w₃ hsnap => ?_) _ _ (snapshots_wpS w₂))
  have hrevoked₃ := hrevoked₂.meanwhile hsnap.1
  cases taken with
  | error error =>
    refine ⟨trivial, fun _ w₄ h₄ => ?_⟩
    exact unlock_ends_wpS (hrevoked₃.sets h₄) _
  | ok taken =>
    obtain ⟨net, authority, state⟩ := taken
    change Prog.wpS _ _ _ (if ¬ transitionValid net authority state = true then _ else _) w₃
    split
    · refine ⟨trivial, fun _ w₄ h₄ => ?_⟩
      exact unlock_ends_wpS (hrevoked₃.sets h₄) _
    refine ⟨trivial, fun error w₄ h₄ => ?_⟩
    change Prog.wpS _ _ _ (if error ≠ espOk then _ else _) w₄
    split
    · exact unlock_ends_wpS (hrevoked₃.sets h₄) _
    refine (Prog.wpS_bind _ _ _ _ _).mpr
      (Prog.wpS_mono (fun _ _ h => h) (fun result' w₅ hunlock => ?_) _ _
        (unlock_revoked_wpS (hrevoked₃.sets h₄) _))
    exact erase_wpS hunlock.2

theorem abandon_wpS (h : InPhase t (Revoked w₀) .idle w) (error : EspErr) :
    (abandon error).wpS (FactoryResetAnswers t) (ErasesSealed t w₀) (ResetEnds t w₀) w := by
  refine ⟨trivial, fun locked w₁ h₁ => ?_⟩
  have hrevoked₁ := h.meanwhile h₁
  change Prog.wpS _ _ _ (if locked ≠ espOk then _ else _) w₁
  split
  · exact .inr hrevoked₁
  refine ⟨trivial, fun _ w₂ h₂ => ⟨trivial, fun revoked w₃ h₃ => ?_⟩⟩
  exact unlock_ends_wpS ((hrevoked₁.lock h₂).sets h₃) _

theorem reset_proceed_wpS (h : InPhase t (Revoked w₀) .idle w) :
    proceed.wpS (FactoryResetAnswers t) (ErasesSealed t w₀) (ResetEnds t w₀) w := by
  refine ⟨trivial, fun _ w₁ h₁ => ⟨trivial, fun error w₂ h₂ => ?_⟩⟩
  have hrevoked₂ := (h.meanwhile h₁).meanwhile h₂
  change Prog.wpS _ _ _ (if error ≠ espOk then _ else _) w₂
  split
  · exact abandon_wpS hrevoked₂ error
  · exact finish_wpS hrevoked₂

theorem factoryResetExecute_wpS (present : FactoryResetOp → Bool)
    (hidle : w₀.now.router.task t = .idle) :
    (factoryResetExecute present).wpS (FactoryResetAnswers t) (ErasesSealed t w₀) (ResetEnds t w₀) w₀ := by
  have hstart := Begun.start hidle
  unfold factoryResetExecute
  split
  · exact .inl ⟨rfl, rfl, hstart⟩
  refine ⟨trivial, fun error w₁ h₁ => ?_⟩
  have hbegun₁ := hstart.meanwhile h₁
  change Prog.wpS _ _ _ (if error ≠ espOk then _ else _) w₁
  split
  · exact .inl ⟨rfl, rfl, hbegun₁⟩
  refine ⟨trivial, fun _ w₂ h₂ => ?_⟩
  have hbegun₂ := hbegun₁.lock h₂
  change Prog.wpS _ _ _ (snapshots >>= _) w₂
  refine (Prog.wpS_bind _ _ _ _ _).mpr
    (Prog.wpS_mono (fun _ _ h => h) (fun taken w₃ hsnap => ?_) _ _ (snapshots_wpS w₂))
  obtain ⟨hm, hsees⟩ := hsnap
  have hbegun₃ := hbegun₂.meanwhile hm
  cases taken with
  | error error => exact unlock_begun_wpS hbegun₃ rfl rfl
  | ok taken =>
    obtain ⟨net, authority, state⟩ := taken
    change Prog.wpS _ _ _ (if factoryResetEvaluatePolicy net authority state false ≠ .ok then _ else _) w₃
    split
    · exact unlock_begun_wpS hbegun₃ rfl rfl
    next hpolicy =>
    have hstate := stopped_of_stationary (stationary_of_policy (not_not.mp hpolicy))
    have hsees := hsees net authority state rfl
    have hsince := sealedSince_of_sees hbegun₂.task hsees hstate
    rw [hsees.2.2.1] at hstate
    refine ⟨trivial, fun error w₄ h₄ => ?_⟩
    obtain ⟨herror, hrevoked₄⟩ :=
      revoked_of_sets hbegun₃.holds.1 (before_refl w₃) hstate hbegun₃.task hsince h₄ (.inr rfl) rfl
    change Prog.wpS _ _ _ (unlock _ >>= _) w₄
    refine (Prog.wpS_bind _ _ _ _ _).mpr
      (Prog.wpS_mono (fun _ _ h => h) (fun result w₅ hunlock => ?_) _ _
        (unlock_revoked_wpS hrevoked₄ _))
    change Prog.wpS _ _ _ (if error ≠ espOk then _ else _) w₅
    rw [if_neg (not_not.mpr herror)]
    exact reset_proceed_wpS hunlock.2

/-- It gets to the erase where nothing is in its way. -/
theorem reset_erases (hidle : w₀.now.router.task t = .idle) (hfree : w₀.now.router.dispatchMutex = none)
    (hmode : w₀.now.router.authority.mode = .localService)
    (howner : w₀.now.router.authority.owner = .browser) (hpend : w₀.now.machine.pending = none)
    (hstopped : w₀.now.machine.core.machineState = .unlocked ∨
      w₀.now.machine.core.machineState = .holding)
    (hlatch : w₀.now.machine.core.estopLatched = false) :
    ∃ tr u, Asks (FactoryResetAnswers t) (factoryResetExecute fun _ => true) w₀ tr
      .eraseConfiguration u := by
  obtain ⟨w₁, hlock₁, htask₁, hauthority₁, hmachine₁⟩ := taskLocks_alone hidle hfree
  obtain ⟨w₂, hbegin, htask₂, hauthority₂, hmachine₂⟩ := taskSets_alone .serviceTransition .none htask₁
  obtain ⟨w₃, hunlock₃, htask₃, hfree₃, hauthority₃, hmachine₃⟩ := taskUnlocks_alone htask₂
  obtain ⟨w₄, hlock₄, htask₄, hauthority₄, hmachine₄⟩ := taskLocks_alone htask₃ hfree₃
  obtain ⟨w₅, hrevoke, htask₅, -, -⟩ := taskSets_alone .none .none htask₄
  obtain ⟨w₆, hunlock₆, -, -, -, -⟩ := taskUnlocks_alone htask₅
  let net (mode : NetworkMode) : NetSnapshot := ⟨mode, .disabled, false, false, true, false, true, false⟩
  let snap : StateSnapshot := ⟨w₀.now.machine.core.machineState, 0, 0, false, false, 0⟩
  have hstationary : stateIsStationarySafe snap = true := by
    unfold stateIsStationarySafe
    rcases hstopped with h | h <;> simp [snap, h]
  have hsees (w : PlantRun cfg gen) (hmachine : w.now.machine = w₀.now.machine) : TaskSees t w snap w :=
    taskSees_alone (by rw [hmachine, hpend]) (by rw [hmachine]) (by rw [hmachine, hlatch])
  have hsees₁ := hsees w₁ hmachine₁
  have hsees₄ := hsees w₄ (by rw [hmachine₄, hmachine₃, hmachine₂, hmachine₁])
  have hpolicy : factoryResetEvaluatePolicy (net .serviceApOnly) w₁.now.router.authority snap false = .ok := by
    simp [factoryResetEvaluatePolicy, serviceNetworkIsConverged, net, hauthority₁, hmode, howner, hstationary]
  have htransition : transitionValid (net .serviceTransition) w₄.now.router.authority snap = true := by
    rw [hauthority₄, hauthority₃, hauthority₂]
    simp [transitionValid, serviceNetworkIsConverged, net, hstationary]
    exact ⟨rfl, rfl⟩
  have hasks : ∃ tr, Asks (FactoryResetAnswers t) (factoryResetExecute fun _ => true) w₀ tr
      .eraseConfiguration w₆ := by
    unfold factoryResetExecute
    rw [if_neg (by decide)]
    refine Asks.after (r := espOk) (.refl w₀) (Asks.after (r := ()) hlock₁
      (Asks.after (r := (espOk, net .serviceApOnly)) (.refl w₁)
        (Asks.after (r := (espOk, w₁.now.router.authority)) ⟨.refl w₁, rfl⟩ (Asks.after hsees₁ ?_))))
    change ∃ _, Asks _ (if factoryResetEvaluatePolicy _ _ snap false ≠ .ok then _ else _) _ _ _ _
    rw [if_neg (not_not.mpr hpolicy)]
    refine Asks.after hbegin (Asks.after (r := ()) hunlock₃ (Asks.after (r := ()) (.refl w₃)
      (Asks.after (r := ()) (.refl w₃) (Asks.after (r := espOk) (.refl w₃)
        (Asks.after (r := espOk) (.refl w₃) (Asks.after (r := ()) hlock₄
          (Asks.after (r := (espOk, net .serviceTransition)) (.refl w₄)
            (Asks.after (r := (espOk, w₄.now.router.authority)) ⟨.refl w₄, rfl⟩
              (Asks.after hsees₄ ?_)))))))))
    change ∃ _, Asks _ (if ¬ transitionValid _ _ snap = true then _ else _) _ _ _ _
    rw [if_neg (not_not.mpr htransition)]
    exact Asks.after hrevoke (Asks.after (r := ()) hunlock₆ (Asks.after (r := ()) (.refl w₆) ⟨_, .here⟩))
  obtain ⟨tr, hasks⟩ := hasks
  exact ⟨tr, w₆, hasks⟩

end FactoryReset

end Argus
