import ArgusPump.PlantTasks

/-!
# Service exit

`main/argus_net_mgr.c`, `argus_net_mgr_request_service_exit`: the way out of `SERVICE_AP_ONLY`,
made by one task of the controller while the others go on.  Two dispatch gates with a stop of the
machine between them, and a restart at the end.

    stopped     only after the authority was withdrawn under the first gate
    restarted   only a machine sealed off since the snapshot under the second gate, unless
                the authority was given out since
    refused     with the authority left alone, or taken away
                                                                        (service_exit_seals)

Left out: the network mutex, the network mode but for the first check of it, and `s_last_error`.
-/

namespace Argus

open Interact
open Prog (Exec Asks)

/-! ## The program -/

/-- The calls of `argus_net_mgr_request_service_exit`, and its reads and writes of the mode. -/
inductive ServiceExitOp
  | takeNetMutex | giveNetMutex | getNetMode | setNetMode (mode : NetworkMode)
  | lockDispatch | unlockDispatch | getAuthority
  | setAuthority (mode : ControlAuthority) (owner : AuthorityOwner)
  | stopNormal | getState | delay | restart
deriving DecidableEq

abbrev ServiceExitOp.Answer : ServiceExitOp → Type
  | .getNetMode => NetworkMode
  | .getAuthority => AuthoritySnapshot
  | .getState => StateSnapshot
  | .setAuthority _ _ | .stopNormal => EspErr
  | .takeNetMutex | .giveNetMutex | .setNetMode _ | .lockDispatch | .unlockDispatch | .delay | .restart =>
    Unit

abbrev ServiceExitProg := Prog ServiceExitOp ServiceExitOp.Answer

namespace ServiceExit

def call (q : ServiceExitOp) : ServiceExitProg q.Answer := .ask q .ret

/-- `exit_fail_closed`, past the dispatch mutex. -/
def failClosed (stopErr : EspErr) : ServiceExitProg EspErr := do
  let _ ← call (.setAuthority .none .none)
  call (.setNetMode .networkFault)
  call .giveNetMutex
  return stopErr

/-- A refusal under the second gate. -/
def refuse : ServiceExitProg EspErr := do
  let _ ← call (.setAuthority .none .none)
  call (.setNetMode .networkFault)
  call .unlockDispatch
  call .giveNetMutex
  return espErrInvalidState

def unsafeToRestart (snap : StateSnapshot) : Prop :=
  snap.estopLatched = true ∨ snap.machineState = .emergencyStopped ∨ snap.machineState = .faulted ∨
    (snap.machineState ≠ .holding ∧ snap.machineState ≠ .unlocked)

instance (snap : StateSnapshot) : Decidable (unsafeToRestart snap) := by
  unfold unsafeToRestart
  infer_instance

/-- From the second gate on, for the generation that the first left. -/
def revoke (transitionGen : UInt32) : ServiceExitProg EspErr := do
  call .lockDispatch
  let recheck ← call .getAuthority
  if recheck.mode ≠ .serviceTransition ∨ recheck.owner ≠ .none ∨ recheck.generation ≠ transitionGen then
    refuse
  else
    let snap ← call .getState
    if unsafeToRestart snap then refuse
    else
      let _ ← call (.setAuthority .none .none)
      call .unlockDispatch
      call .giveNetMutex
      call .delay
      call .restart
      return espOk

/-- The polls of the stop that are left, and the error to fail with if it is to fail. -/
def awaitStop : Nat → ServiceExitProg (Option EspErr)
  | 0 => return some espErrTimeout
  | polls + 1 => do
    let snap ← call .getState
    if snap.machineState = .holding ∨ snap.machineState = .unlocked then return none
    if snap.machineState = .emergencyStopped ∨ snap.machineState = .faulted ∨ snap.estopLatched then
      return some espErrInvalidState
    call .delay
    awaitStop polls

/-- Between the gates: 5 s in steps of 50 ms. -/
def proceed (transitionGen : UInt32) : ServiceExitProg EspErr := do
  let stopErr ← call .stopNormal
  if stopErr ≠ espOk then failClosed stopErr
  else
    match ← awaitStop 100 with
    | some err => failClosed err
    | none => revoke transitionGen

end ServiceExit

open ServiceExit in
/-- `argus_net_mgr_request_service_exit`. -/
def requestServiceExit (initialized : Bool) (requestedOwner : AuthorityOwner) :
    ServiceExitProg EspErr := do
  if ¬ initialized then return espErrInvalidState
  call .takeNetMutex
  let mode ← call .getNetMode
  if mode ≠ .serviceApOnly then
    call .giveNetMutex
    return espErrInvalidState
  call .lockDispatch
  let snap ← call .getAuthority
  if snap.mode ≠ .localService ∨ snap.owner ≠ requestedOwner then
    call .unlockDispatch
    call .giveNetMutex
    return espErrInvalidState
  call (.setNetMode .serviceTransition)
  let _ ← call (.setAuthority .serviceTransition .none)
  let post ← call .getAuthority
  call .unlockDispatch
  proceed post.generation

/-- The functions that it calls, in task `t` of a running controller. -/
def ServiceExitAnswers {cfg : ArgusConfig} {gen : StepGen} (t : Nat) :
    (q : ServiceExitOp) → PlantRun cfg gen → q.Answer → PlantRun cfg gen → Prop
  | .lockDispatch, w, _, w' => TaskActs t w .lockDispatch w'
  | .unlockDispatch, w, _, w' => TaskActs t w .unlockDispatch w'
  | .getAuthority, w, snap, w' => Meanwhile t w w' ∧ snap = w'.now.router.authority
  | .setAuthority mode owner, w, err, w' => TaskSets t w mode owner err w'
  | .stopNormal, w, err, w' => TaskStops t w err w'
  | .getState, w, snap, w' => TaskSees t w snap w'
  | .takeNetMutex, w, _, w' => Meanwhile t w w'
  | .giveNetMutex, w, _, w' => Meanwhile t w w'
  | .getNetMode, w, _, w' => Meanwhile t w w'
  | .setNetMode _, w, _, w' => Meanwhile t w w'
  | .delay, w, _, w' => Meanwhile t w w'
  | .restart, w, _, w' => Meanwhile t w w'

/-! ## What it leaves -/

section Exit

open ServiceExit

variable {cfg : ArgusConfig} {gen : StepGen} {t : Nat} {w₀ w : PlantRun cfg gen}

/-- What it is that is stopped, and restarted. -/
def ExitsSealed (t : Nat) (w₀ : PlantRun cfg gen) : ServiceExitOp → PlantRun cfg gen → Prop
  | .stopNormal, w => InPhase t (Withdrawn w₀) .idle w
  | .restart, w => InPhase t (Revoked w₀) .idle w
  | _, _ => True

/-- How a service exit ends: refused at once, failed, or at a restart that is over. -/
def ExitEnds (t : Nat) (w₀ : PlantRun cfg gen) (err : EspErr) (w : PlantRun cfg gen) : Prop :=
  (err = espErrInvalidState ∧ InPhase t (Untouched t w₀) .idle w) ∨
    (err ≠ espOk ∧ InPhase t (Withdrawn w₀) .idle w) ∨ (err = espOk ∧ InPhase t (Revoked w₀) .idle w)

theorem stopped_of_not_unsafe {snap : StateSnapshot} (h : ¬ unsafeToRestart snap) :
    snap.machineState = .unlocked ∨ snap.machineState = .holding := by
  unfold unsafeToRestart at h
  simp only [not_or, not_and, not_not] at h
  by_cases hholding : snap.machineState = .holding
  · exact .inr hholding
  · exact .inl (h.2.2.2 hholding)

theorem failClosed_wpS {stopErr : EspErr} (h : InPhase t (Withdrawn w₀) .idle w) (herr : stopErr ≠ espOk) :
    (failClosed stopErr).wpS (ServiceExitAnswers t) (ExitsSealed t w₀) (ExitEnds t w₀) w := by
  refine ⟨trivial, fun _ w₁ h₁ => ⟨trivial, fun _ w₂ h₂ => ⟨trivial, fun _ w₃ h₃ => ?_⟩⟩⟩
  exact .inr (.inl ⟨herr, ((h.sets h₁).meanwhile h₂).meanwhile h₃⟩)

theorem refuse_wpS (h : InPhase t (Withdrawn w₀) .transition w) :
    refuse.wpS (ServiceExitAnswers t) (ExitsSealed t w₀) (ExitEnds t w₀) w := by
  refine ⟨trivial, fun _ w₁ h₁ => ⟨trivial, fun _ w₂ h₂ => ⟨trivial, fun _ w₃ h₃ =>
    ⟨trivial, fun _ w₄ h₄ => ?_⟩⟩⟩⟩
  exact .inr (.inl ⟨by decide, (((h.sets h₁).meanwhile h₂).unlock h₃).meanwhile h₄⟩)

theorem revoke_wpS {transitionGen : UInt32} (h : InPhase t (Withdrawn w₀) .idle w) :
    (revoke transitionGen).wpS (ServiceExitAnswers t) (ExitsSealed t w₀) (ExitEnds t w₀) w := by
  refine ⟨trivial, fun _ w₁ h₁ => ⟨trivial, fun recheck w₂ h₂ => ?_⟩⟩
  have hgate := (h.lock h₁).meanwhile h₂.1
  change Prog.wpS _ _ _ (if recheck.mode ≠ .serviceTransition ∨ _ then _ else _) w₂
  split
  · exact refuse_wpS hgate
  refine ⟨trivial, fun snap w₃ h₃ => ?_⟩
  have hgate₃ := hgate.meanwhile h₃.1
  change Prog.wpS _ _ _ (if unsafeToRestart snap then _ else _) w₃
  split
  · exact refuse_wpS hgate₃
  next hsafe =>
  have hstate := stopped_of_not_unsafe hsafe
  have hsince := sealedSince_of_sees hgate.task h₃ hstate
  rw [h₃.2.2.1] at hstate
  refine ⟨trivial, fun err w₄ h₄ => ?_⟩
  obtain ⟨-, hrevoked⟩ :=
    revoked_of_sets hgate₃.holds.before (before_refl w₃) hstate hgate₃.task hsince h₄ (.inl rfl) rfl
  refine ⟨trivial, fun _ w₅ h₅ => ⟨trivial, fun _ w₆ h₆ => ⟨trivial, fun _ w₇ h₇ => ?_⟩⟩⟩
  have h₇ := ((hrevoked.unlock h₅).meanwhile h₆).meanwhile h₇
  exact ⟨h₇, fun _ w₈ h₈ => .inr (.inr ⟨rfl, h₇.meanwhile h₈⟩)⟩

/-- The polls leave the authority alone. -/
theorem awaitStop_wpS (polls : Nat) (w : PlantRun cfg gen) :
    (awaitStop polls).wpS (ServiceExitAnswers t) (ExitsSealed t w₀)
      (fun r w' => Meanwhile t w w' ∧ ∀ err, r = some err → err ≠ espOk) w := by
  induction polls generalizing w with
  | zero => exact ⟨.refl w, fun err heq => by cases heq; decide⟩
  | succ polls ih =>
    refine ⟨trivial, fun snap w₁ h₁ => ?_⟩
    change Prog.wpS _ _ _ (if snap.machineState = .holding ∨ _ then _ else _) w₁
    split
    · exact ⟨h₁.1, fun err heq => nomatch heq⟩
    change Prog.wpS _ _ _ (if snap.machineState = .emergencyStopped ∨ _ then _ else _) w₁
    split
    · exact ⟨h₁.1, fun err heq => by cases heq; decide⟩
    refine ⟨trivial, fun _ w₂ h₂ => ?_⟩
    refine Prog.wpS_mono (fun _ _ h => h) (fun r w₃ h₃ => ⟨?_, h₃.2⟩) _ _ (ih w₂)
    exact (Meanwhile.trans h₁.1 h₂).trans h₃.1

theorem exit_proceed_wpS {transitionGen : UInt32} (h : InPhase t (Withdrawn w₀) .idle w) :
    (ServiceExit.proceed transitionGen).wpS (ServiceExitAnswers t) (ExitsSealed t w₀) (ExitEnds t w₀)
      w := by
  refine ⟨h, fun stopErr w₁ h₁ => ?_⟩
  have hstops := h.stops h₁
  change Prog.wpS _ _ _ (if stopErr ≠ espOk then _ else _) w₁
  split
  next herr => exact failClosed_wpS hstops herr
  change Prog.wpS _ _ _ (awaitStop 100 >>= _) w₁
  refine (Prog.wpS_bind _ _ _ _ _).mpr
    (Prog.wpS_mono (fun _ _ h => h) (fun r w₂ h₂ => ?_) _ _ (awaitStop_wpS 100 w₁))
  cases r with
  | some err => exact failClosed_wpS (hstops.meanwhile h₂.1) (h₂.2 err rfl)
  | none => exact revoke_wpS (hstops.meanwhile h₂.1)

theorem requestServiceExit_wpS (initialized : Bool) (requestedOwner : AuthorityOwner)
    (hidle : w₀.now.router.task t = .idle) :
    (requestServiceExit initialized requestedOwner).wpS (ServiceExitAnswers t) (ExitsSealed t w₀)
      (ExitEnds t w₀) w₀ := by
  have hstart := Begun.start hidle
  unfold requestServiceExit
  split
  · exact .inl ⟨rfl, hstart⟩
  refine ⟨trivial, fun _ w₁ h₁ => ⟨trivial, fun mode w₂ h₂ => ?_⟩⟩
  have hbegun₂ := (hstart.meanwhile h₁).meanwhile h₂
  change Prog.wpS _ _ _ (if mode ≠ .serviceApOnly then _ else _) w₂
  split
  · exact ⟨trivial, fun _ w₃ h₃ => .inl ⟨rfl, hbegun₂.meanwhile h₃⟩⟩
  refine ⟨trivial, fun _ w₃ h₃ => ⟨trivial, fun snap w₄ h₄ => ?_⟩⟩
  have hbegun₄ := (hbegun₂.lock h₃).meanwhile h₄.1
  change Prog.wpS _ _ _ (if snap.mode ≠ .localService ∨ _ then _ else _) w₄
  split
  · refine ⟨trivial, fun _ w₅ h₅ => ⟨trivial, fun _ w₆ h₆ => ?_⟩⟩
    exact .inl ⟨rfl, (hbegun₄.unlock h₅).meanwhile h₆⟩
  refine ⟨trivial, fun _ w₅ h₅ => ⟨trivial, fun err w₆ h₆ => ?_⟩⟩
  have hbegun₅ := hbegun₄.meanwhile h₅
  obtain ⟨-, hwithdrawn⟩ := withdrawn_of_sets hbegun₅.holds.1 hbegun₅.task h₆ (.inr rfl) rfl
  refine ⟨trivial, fun post w₇ h₇ => ⟨trivial, fun _ w₈ h₈ => ?_⟩⟩
  have hwithdrawn₈ := (hwithdrawn.meanwhile h₇.1).unlock h₈
  exact exit_proceed_wpS hwithdrawn₈

/-- It gets to the restart where nothing is in its way. -/
theorem exit_restarts {owner : AuthorityOwner} (hidle : w₀.now.router.task t = .idle)
    (hfree : w₀.now.router.dispatchMutex = none) (hmode : w₀.now.router.authority.mode = .localService)
    (howner : w₀.now.router.authority.owner = owner) (hpend : w₀.now.machine.pending = none)
    (hmutex : w₀.now.machine.mutex = .free)
    (hstopped : w₀.now.machine.core.machineState = .unlocked ∨
      w₀.now.machine.core.machineState = .holding)
    (hlatch : w₀.now.machine.core.estopLatched = false) :
    ∃ tr u, Asks (ServiceExitAnswers t) (requestServiceExit true owner) w₀ tr .restart u := by
  obtain ⟨w₁, hlock₁, htask₁, hauthority₁, hmachine₁⟩ := taskLocks_alone hidle hfree
  obtain ⟨w₂, hsets₂, htask₂, hauthority₂, hmachine₂⟩ := taskSets_alone .serviceTransition .none htask₁
  obtain ⟨w₃, hunlock₃, htask₃, hfree₃, hauthority₃, hmachine₃⟩ := taskUnlocks_alone htask₂
  have hmachine : w₃.now.machine = w₀.now.machine := by rw [hmachine₃, hmachine₂, hmachine₁]
  obtain ⟨w₄, hstops₄, hrouter₄, hpend₄, hcore₄⟩ := taskStops_alone (t := t) (w := w₃)
    (by rw [hmachine, hpend]) (by rw [hmachine, hmutex]) (by rw [hmachine]; exact hstopped)
  obtain ⟨w₅, hlock₅, htask₅, hauthority₅, hmachine₅⟩ :=
    taskLocks_alone (w := w₄) (by rw [hrouter₄, htask₃]) (by rw [hrouter₄, hfree₃])
  obtain ⟨w₆, hsets₆, htask₆, -, -⟩ := taskSets_alone .none .none htask₅
  obtain ⟨w₇, hunlock₇, -, -, -, -⟩ := taskUnlocks_alone htask₆
  let snap : StateSnapshot := ⟨w₀.now.machine.core.machineState, 0, 0, false, false, 0⟩
  have hsees₄ : TaskSees t w₄ snap w₄ :=
    taskSees_alone hpend₄ (by rw [hcore₄, hmachine]) (by rw [hcore₄, hmachine, hlatch])
  have hsees₅ : TaskSees t w₅ snap w₅ :=
    taskSees_alone (by rw [hmachine₅, hpend₄]) (by rw [hmachine₅, hcore₄, hmachine])
      (by rw [hmachine₅, hcore₄, hmachine, hlatch])
  have hsafe : ¬ unsafeToRestart snap := by
    unfold unsafeToRestart
    rcases hstopped with h | h <;> simp [snap, h]
  have hauthority : w₅.now.router.authority = (w₁.now.router.authority.setMode .serviceTransition .none).2 := by
    rw [hauthority₅, hrouter₄, hauthority₃, hauthority₂]
  have hasks : ∃ tr, Asks (ServiceExitAnswers t) (requestServiceExit true owner) w₀ tr .restart w₇ := by
    unfold requestServiceExit
    rw [if_neg (by decide)]
    refine Asks.after (r := ()) (.refl w₀) (Asks.after (r := .serviceApOnly) (.refl w₀)
      (Asks.after (r := ()) hlock₁ (Asks.after (r := w₁.now.router.authority) ⟨.refl w₁, rfl⟩ ?_)))
    change ∃ _, Asks _ (if w₁.now.router.authority.mode ≠ .localService ∨ _ then _ else _) _ _ _ _
    rw [if_neg (by rw [hauthority₁, hmode, howner]; simp)]
    refine Asks.after (r := ()) (.refl w₁) (Asks.after hsets₂
      (Asks.after (r := w₂.now.router.authority) ⟨.refl w₂, rfl⟩ (Asks.after (r := ()) hunlock₃
        (Asks.after hstops₄ (Asks.after hsees₄ ?_)))))
    change ∃ _, Asks _ ((if snap.machineState = .holding ∨ _ then _ else _) >>= _) _ _ _ _
    rw [if_pos hstopped.symm]
    refine Asks.after (r := ()) hlock₅ (Asks.after (r := w₅.now.router.authority) ⟨.refl w₅, rfl⟩ ?_)
    change ∃ _, Asks _ (if w₅.now.router.authority.mode ≠ .serviceTransition ∨ _ then _ else _) _ _ _ _
    rw [if_neg (by rw [hauthority, hauthority₂]; simp; exact ⟨rfl, rfl⟩)]
    refine Asks.after hsees₅ ?_
    change ∃ _, Asks _ (if unsafeToRestart snap then _ else _) _ _ _ _
    rw [if_neg hsafe]
    exact Asks.after hsets₆ (Asks.after (r := ()) hunlock₇ (Asks.after (r := ()) (.refl w₇)
      (Asks.after (r := ()) (.refl w₇) ⟨_, .here⟩)))
  obtain ⟨tr, hasks⟩ := hasks
  exact ⟨tr, w₇, hasks⟩

end Exit

end Argus
