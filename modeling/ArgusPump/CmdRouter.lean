import ArgusPump.StateCore
import ArgusPump.Lib.Run
import Mathlib.Logic.Function.Basic

/-!
# The command router and the authority it checks

`argus_cmd_router_dispatch` of `main/argus_cmd_router.c` over the mode, owner and
generation of `main/argus_authority_mgr.c`.  Any number of tasks dispatch; others change
the authority, with the dispatch mutex (`argus_cmd_router_lock_dispatch`) or without it.

    the mutex has one holder                                          (MutexInv.step)
    no set_mode between a snapshot and the end of its action → every action runs
      under the authority that was checked                            (serialized_authority)
    set_mode with the mutex held is never in between                  (transition_keeps)
    set_mode without it can be                                        (revoked_during_dispatch)

Left out: log output, initialisation and the NULL checks.
-/

namespace Argus

open Interact

/-! ## The authority -/

/-- `argus_control_authority_t`. -/
inductive ControlAuthority
  | none | supervisory | serviceTransition | localService
deriving DecidableEq, Repr

/-- `argus_authority_owner_t`. -/
inductive AuthorityOwner
  | none | mqtt | browser | diagnosticCli
deriving DecidableEq, Repr

/-- `argus_cmd_source_t`. -/
inductive CmdSource
  | internalSafety | cliDiagnostic | mqttSupervisory | localServicePortal
deriving DecidableEq, Repr

/-- `argus_cmd_type_t`. -/
inductive CmdType
  | setTarget | start | stopNormal | unlock | estop | resetEstop | recover
deriving DecidableEq, Repr

/-- `argus_command_envelope_t`. -/
structure CommandEnvelope where
  source : CmdSource
  commandType : CmdType
  authorityGeneration : UInt32
  targetRpmMilli : Int32
  forward : Bool
deriving DecidableEq

/-- `argus_authority_snapshot_t`, and `s_authority` itself. -/
structure AuthoritySnapshot where
  mode : ControlAuthority
  owner : AuthorityOwner
  generation : UInt32
deriving DecidableEq, Repr

def authorityInit : AuthoritySnapshot := ⟨.none, .none, 1⟩

def authorityValidatePair (mode : ControlAuthority) (owner : AuthorityOwner) : EspErr :=
  match mode with
  | .none | .serviceTransition => if owner = .none then espOk else espErrInvalidArg
  | .supervisory => if owner = .mqtt then espOk else espErrInvalidArg
  | .localService =>
    if owner = .browser ∨ owner = .diagnosticCli then espOk else espErrInvalidArg

/-- `argus_authority_mgr_set_mode`. -/
def AuthoritySnapshot.setMode (authority : AuthoritySnapshot) (newMode : ControlAuthority)
    (newOwner : AuthorityOwner) : EspErr × AuthoritySnapshot :=
  if authorityValidatePair newMode newOwner ≠ espOk then
    (authorityValidatePair newMode newOwner, authority)
  else (espOk, ⟨newMode, newOwner, authority.generation + 1⟩)

/-- Allowed whatever the authority is. -/
def safetyAction (source : CmdSource) (cmdType : CmdType) : Bool :=
  source = .internalSafety || cmdType = .estop

def authorityValidatePermission (snap : AuthoritySnapshot) (source : CmdSource)
    (cmdType : CmdType) : Bool :=
  if safetyAction source cmdType then true
  else
    match snap.mode with
    | .none | .serviceTransition => false
    | .supervisory => source = .mqttSupervisory && snap.owner = .mqtt
    | .localService =>
      (source = .localServicePortal && snap.owner = .browser) ||
        (source = .cliDiagnostic && snap.owner = .diagnosticCli)

/-! ## The router -/

/-- Steps 3 and 4 of a dispatch. -/
def dispatchGate (env : CommandEnvelope) (snap : AuthoritySnapshot) : EspErr :=
  if env.authorityGeneration ≠ snap.generation then espErrInvalidState
  else if ¬ authorityValidatePermission snap env.source env.commandType then espErrInvalidState
  else espOk

/-- The entry points of the state manager a dispatch calls with its mutex held. -/
inductive StateMgrAction
  | setTarget (rpmMilli : Int32) (forward : Bool)
  | start | stopNormal | unlock | resetEstop | recover
deriving DecidableEq

/-- Step 5 of a dispatch; `none` is the default branch. -/
def dispatchAction (env : CommandEnvelope) : Option StateMgrAction :=
  match env.commandType with
  | .setTarget => some (.setTarget env.targetRpmMilli env.forward)
  | .start => some .start
  | .stopNormal => some .stopNormal
  | .unlock => some .unlock
  | .resetEstop => some .resetEstop
  | .recover => some .recover
  | .estop => none

/-- `argus_cmd_router_check_authority`. -/
def cmdRouterCheckAuthority (env : CommandEnvelope) (snap : AuthoritySnapshot) : EspErr :=
  if safetyAction env.source env.commandType then espOk else dispatchGate env snap

/-- Where a task is in its call. -/
inductive RouterPhase
  | idle
  /-- Before the dispatch mutex. -/
  | waiting (env : CommandEnvelope)
  /-- With the mutex, before the snapshot. -/
  | locked (env : CommandEnvelope)
  /-- Both checks have passed. -/
  | checked (env : CommandEnvelope) (snap : AuthoritySnapshot)
  /-- In the state manager. -/
  | acting (action : StateMgrAction) (snap : AuthoritySnapshot)
  /-- With the mutex for an authority transition. -/
  | transition
deriving DecidableEq

/-- The task has the dispatch mutex. -/
def RouterPhase.inside : RouterPhase → Bool
  | .idle | .waiting _ => false
  | .locked _ | .checked _ _ | .acting _ _ | .transition => true

/-- A dispatch has its snapshot and has not returned. -/
def RouterPhase.midDispatch : RouterPhase → Bool
  | .checked _ _ | .acting _ _ => true
  | .idle | .waiting _ | .locked _ | .transition => false

structure Router where
  authority : AuthoritySnapshot
  dispatchMutex : Option Nat
  task : Nat → RouterPhase

def Router.start : Router := ⟨authorityInit, none, fun _ => .idle⟩

inductive RouterAct
  | estop (env : CommandEnvelope) (err : EspErr)
  | dispatch (env : CommandEnvelope)
  | takeMutex
  | check
  | execute
  | finish (err : EspErr)
  | lockDispatch
  | unlockDispatch
  | setMode (newMode : ControlAuthority) (newOwner : AuthorityOwner)
deriving DecidableEq

structure RouterEvent where
  task : Nat
  act : RouterAct

namespace Router

def goto (w : Router) (task : Nat) (phase : RouterPhase) : Router :=
  { w with task := Function.update w.task task phase }

/-- One step of a task, with what its call returns if it returns; `none` while it has to
wait or is elsewhere in its code. -/
def next (w : Router) (ev : RouterEvent) : Option (Option EspErr × Router) :=
  match ev.act, w.task ev.task with
  | .estop env err, .idle =>
    -- past the mutex and the authority
    if safetyAction env.source env.commandType then some (some err, w) else none
  | .dispatch env, .idle =>
    if safetyAction env.source env.commandType then none
    else some (none, w.goto ev.task (.waiting env))
  | .takeMutex, .waiting env =>
    if w.dispatchMutex = none then
      some (none, { w with dispatchMutex := some ev.task }.goto ev.task (.locked env))
    else none
  | .check, .locked env =>
    if dispatchGate env w.authority = espOk then
      some (none, w.goto ev.task (.checked env w.authority))
    else
      some (some (dispatchGate env w.authority),
        { w with dispatchMutex := none }.goto ev.task .idle)
  | .execute, .checked env snap =>
    match dispatchAction env with
    | some action => some (none, w.goto ev.task (.acting action snap))
    | none => some (some espErrInvalidArg, { w with dispatchMutex := none }.goto ev.task .idle)
  | .finish err, .acting _ _ =>
    some (some err, { w with dispatchMutex := none }.goto ev.task .idle)
  | .lockDispatch, .idle =>
    if w.dispatchMutex = none then
      some (none, { w with dispatchMutex := some ev.task }.goto ev.task .transition)
    else none
  | .unlockDispatch, .transition =>
    some (none, { w with dispatchMutex := none }.goto ev.task .idle)
  | .setMode newMode newOwner, .idle | .setMode newMode newOwner, .transition =>
    let r := w.authority.setMode newMode newOwner
    some (some r.1, { w with authority := r.2 })
  | _, _ => none

end Router

def routerStep (w : Router) (ev : RouterEvent) (w' : Router) : Prop :=
  ∃ returned, w.next ev = some (returned, w')

/-! ## What a step can do -/

/-- A step of task `t`: the phases it leaves and enters, the mutex and the authority. -/
inductive RouterMove (w : Router) (t : Nat) : Router → Prop
  | estop : RouterMove w t w
  | call (env : CommandEnvelope) (h : w.task t = .idle) : RouterMove w t (w.goto t (.waiting env))
  | acquire (phase : RouterPhase) (hfree : w.dispatchMutex = none)
      (hmid : phase.midDispatch = false) :
      RouterMove w t ({ w with dispatchMutex := some t }.goto t phase)
  | pass (env : CommandEnvelope) (h : w.task t = .locked env)
      (hgate : dispatchGate env w.authority = espOk) :
      RouterMove w t (w.goto t (.checked env w.authority))
  | execute (env : CommandEnvelope) (snap : AuthoritySnapshot) (h : w.task t = .checked env snap)
      (action : StateMgrAction) : RouterMove w t (w.goto t (.acting action snap))
  | release (h : (w.task t).inside = true) :
      RouterMove w t ({ w with dispatchMutex := none }.goto t .idle)
  | refused : RouterMove w t w
  | setMode (newMode : ControlAuthority) (newOwner : AuthorityOwner)
      (hpair : authorityValidatePair newMode newOwner = espOk) :
      RouterMove w t
        { w with authority := ⟨newMode, newOwner, w.authority.generation + 1⟩ }

theorem setMode_move (w : Router) (t : Nat) (newMode : ControlAuthority)
    (newOwner : AuthorityOwner) :
    RouterMove w t { w with authority := (w.authority.setMode newMode newOwner).2 } ∧
      ((w.authority.setMode newMode newOwner).2 ≠ w.authority →
        ∃ mode owner, RouterAct.setMode newMode newOwner = .setMode mode owner ∧
          authorityValidatePair mode owner = espOk) := by
  unfold AuthoritySnapshot.setMode
  split
  · exact ⟨.refused, fun hne => absurd rfl hne⟩
  · next hpair =>
    exact ⟨.setMode _ _ (not_not.mp hpair), fun _ => ⟨_, _, rfl, not_not.mp hpair⟩⟩

theorem routerStep_move {w w' : Router} {ev : RouterEvent} (h : routerStep w ev w') :
    RouterMove w ev.task w' ∧
      (w'.authority ≠ w.authority → ∃ newMode newOwner, ev.act = .setMode newMode newOwner ∧
        authorityValidatePair newMode newOwner = espOk) := by
  obtain ⟨t, act⟩ := ev
  obtain ⟨returned, h⟩ := h
  unfold Router.next at h
  split at h
  · split at h
    · cases h
      exact ⟨.estop, fun hne => absurd rfl hne⟩
    · cases h
  · next hidle =>
    split at h
    · cases h
    · cases h
      exact ⟨.call _ hidle, fun hne => absurd rfl hne⟩
  · split at h
    · next hfree =>
      cases h
      exact ⟨.acquire _ hfree rfl, fun hne => absurd rfl hne⟩
    · cases h
  · next hlocked =>
    split at h
    · next hgate =>
      cases h
      exact ⟨.pass _ hlocked hgate, fun hne => absurd rfl hne⟩
    · cases h
      exact ⟨.release (by rw [hlocked]; rfl), fun hne => absurd rfl hne⟩
  · next hchecked =>
    split at h
    · cases h
      exact ⟨.execute _ _ hchecked _, fun hne => absurd rfl hne⟩
    · cases h
      exact ⟨.release (by rw [hchecked]; rfl), fun hne => absurd rfl hne⟩
  · next hacting =>
    cases h
    exact ⟨.release (by rw [hacting]; rfl), fun hne => absurd rfl hne⟩
  · split at h
    · next hfree =>
      cases h
      exact ⟨.acquire _ hfree rfl, fun hne => absurd rfl hne⟩
    · cases h
  · next htransition =>
    cases h
    exact ⟨.release (by rw [htransition]; rfl), fun hne => absurd rfl hne⟩
  · next newMode newOwner hact _ =>
    cases h
    rw [show act = .setMode newMode newOwner from hact]
    exact setMode_move w t newMode newOwner
  · next newMode newOwner hact _ =>
    cases h
    rw [show act = .setMode newMode newOwner from hact]
    exact setMode_move w t newMode newOwner
  · cases h

/-! ## What every step keeps -/

/-- Every action in the state manager runs under the authority its dispatch checked. -/
def SerializedAuthority (w : Router) : Prop :=
  ∀ t action snap, w.task t = .acting action snap → w.authority = snap

/-- `argus_authority_mgr_set_mode` takes effect only while no dispatch is between its
snapshot and the end of its action. -/
def KeepsDispatch (v : Move Router RouterEvent) : Prop :=
  ∀ newMode newOwner, v.ev.act = .setMode newMode newOwner →
    authorityValidatePair newMode newOwner = espOk → ∀ t, (v.pre.task t).midDispatch = false

/-- One task at most has the mutex. -/
def MutexInv (w : Router) : Prop := ∀ t, (w.task t).inside = true → w.dispatchMutex = some t

/-- What a dispatch has checked is in force. -/
def AuthorityInv (w : Router) : Prop :=
  ∀ t snap, (∃ env, w.task t = .checked env snap) ∨ (∃ action, w.task t = .acting action snap) →
    w.authority = snap

theorem RouterPhase.inside_of_midDispatch {phase : RouterPhase} (h : phase.midDispatch = true) :
    phase.inside = true := by
  cases phase <;> first | rfl | cases h

theorem goto_task (w : Router) (t u : Nat) (phase : RouterPhase) :
    (w.goto t phase).task u = if u = t then phase else w.task u := by
  unfold Router.goto
  exact Function.update_apply _ _ _ _

theorem MutexInv.step {w w' : Router} {ev : RouterEvent} (h : MutexInv w)
    (hs : routerStep w ev w') : MutexInv w' := by
  obtain ⟨hmove, -⟩ := routerStep_move hs
  intro u hu
  cases hmove with
  | estop => exact h u hu
  | refused => exact h u hu
  | setMode => exact h u hu
  | call env hidle =>
    rw [goto_task] at hu
    split at hu
    · cases hu
    · exact h u hu
  | acquire phase hfree =>
    rw [goto_task] at hu
    split at hu
    · next heq =>
      rw [heq]
      rfl
    · have := h u hu
      rw [hfree] at this
      cases this
  | pass env hlocked =>
    rw [goto_task] at hu
    split at hu
    · next heq =>
      subst heq
      exact h _ (by rw [hlocked]; rfl)
    · exact h u hu
  | execute env snap hchecked =>
    rw [goto_task] at hu
    split at hu
    · next heq =>
      subst heq
      exact h _ (by rw [hchecked]; rfl)
    · exact h u hu
  | release hin =>
    rw [goto_task] at hu
    split at hu
    · cases hu
    · next hne =>
      -- two tasks inside
      have := (h u hu).symm.trans (h _ hin)
      exact absurd (Option.some.inj this) hne

theorem AuthorityInv.step {v : Move Router RouterEvent} (h : AuthorityInv v.pre)
    (hs : routerStep v.pre v.ev v.post) (hkeeps : KeepsDispatch v) : AuthorityInv v.post := by
  obtain ⟨w, ⟨t, act⟩, w'⟩ := v
  obtain ⟨hmove, hset⟩ : RouterMove w t w' ∧ _ := routerStep_move hs
  intro u snap hu
  by_cases hsame : w'.authority = w.authority
  · rw [hsame]
    cases hmove with
    | estop => exact h u snap hu
    | refused => exact h u snap hu
    | setMode => exact h u snap hu
    | call env' hidle =>
      simp only [goto_task] at hu
      split at hu
      · rcases hu with ⟨_, hu⟩ | ⟨_, hu⟩ <;> cases hu
      · exact h u snap hu
    | acquire phase hfree hmid =>
      simp only [goto_task] at hu
      split at hu
      · rcases hu with ⟨_, hu⟩ | ⟨_, hu⟩ <;> subst hu <;> cases hmid
      · exact h u snap hu
    | pass env' hlocked =>
      simp only [goto_task] at hu
      split at hu
      · rcases hu with ⟨_, hu⟩ | ⟨_, hu⟩ <;> cases hu
        rfl
      · exact h u snap hu
    | execute env' snap' hchecked =>
      simp only [goto_task] at hu
      split at hu
      · rcases hu with ⟨_, hu⟩ | ⟨_, hu⟩ <;> cases hu
        exact h _ _ (.inl ⟨_, hchecked⟩)
      · exact h u snap hu
    | release hin =>
      simp only [goto_task] at hu
      split at hu
      · rcases hu with ⟨_, hu⟩ | ⟨_, hu⟩ <;> cases hu
      · exact h u snap hu
  · -- a mode change took effect: no dispatch was under way
    obtain ⟨newMode, newOwner, hact, hpair⟩ := hset hsame
    have hnone := hkeeps newMode newOwner hact hpair u
    have htask : w'.task = w.task := by
      cases hmove with
      | setMode => rfl
      | estop => rfl
      | refused => rfl
      | call => exact absurd rfl hsame
      | acquire => exact absurd rfl hsame
      | pass => exact absurd rfl hsame
      | execute => exact absurd rfl hsame
      | release => exact absurd rfl hsame
    simp only [htask] at hu
    rcases hu with ⟨_, hu⟩ | ⟨_, hu⟩ <;> rw [hu] at hnone <;> cases hnone

theorem AuthorityInv.start : AuthorityInv Router.start := by
  rintro t snap (⟨_, h⟩ | ⟨_, h⟩)
  · cases h
  · cases h

/-! ## Runs -/

theorem serialized_authority {ms : List (Move Router RouterEvent)}
    (h : IsRun routerStep Router.start ms) (hkeeps : ∀ v ∈ ms, KeepsDispatch v) :
    ∀ v ∈ ms, SerializedAuthority v.pre ∧ SerializedAuthority v.post := by
  have hstart : AuthorityInv Router.start := by
    rintro t snap (⟨_, h⟩ | ⟨_, h⟩)
    · cases h
    · cases h
  have hinv := (h.inv_of hstart hkeeps fun v hi hs hk => hi.step hs hk).1
  intro v hv
  obtain ⟨hpre, hpost⟩ := hinv v hv
  exact ⟨fun t action snap hacting => hpre t snap (.inr ⟨action, hacting⟩),
    fun t action snap hacting => hpost t snap (.inr ⟨action, hacting⟩)⟩

/-- A mode change by a task that has the dispatch mutex meets the condition. -/
theorem transition_keeps {ms : List (Move Router RouterEvent)}
    (h : IsRun routerStep Router.start ms) {v : Move Router RouterEvent} (hv : v ∈ ms)
    (ht : v.pre.task v.ev.task = .transition) : KeepsDispatch v := by
  have hstart : MutexInv Router.start := fun t h => by cases h
  have hinv : MutexInv v.pre := ((h.inv hstart fun v hi hs => hi.step hs).1 v hv).1
  intro _ _ _ _ u
  by_contra hmid
  rw [Bool.not_eq_false] at hmid
  have hu := hinv u (RouterPhase.inside_of_midDispatch hmid)
  have hmine := hinv v.ev.task (by rw [ht]; rfl)
  obtain rfl : v.ev.task = u := Option.some.inj (hmine.symm.trans hu)
  rw [ht] at hmid
  cases hmid

/-! ## The network manager and a dispatch -/

/-- The MQTT task's start command under generation 2. -/
def mqttStart : CommandEnvelope := ⟨.mqttSupervisory, .start, 2, 0, true⟩

/-- The moves of the tasks on a list of events. -/
def routerTrace : Router → List RouterEvent → List (Move Router RouterEvent) :=
  traceWhile fun w ev => (w.next ev).map fun r => (ev, r.2)

theorem isRun_routerTrace (w : Router) (evs : List RouterEvent) :
    IsRun routerStep w (routerTrace w evs) := by
  refine isRun_traceWhile (fun w ev e w' h => ?_) w evs
  obtain ⟨⟨returned, t⟩, hnext, heq⟩ := Option.map_eq_some_iff.mp h
  cases heq
  exact ⟨returned, hnext⟩

def RouterAct.isSetMode : RouterAct → Bool
  | .setMode _ _ => true
  | _ => false

/-- Authority is granted and revoked by task 1 with the dispatch mutex held; task 0 starts
the machine in between. -/
theorem serialized_start :
    let ms := routerTrace Router.start [⟨1, .lockDispatch⟩, ⟨1, .setMode .supervisory .mqtt⟩,
      ⟨1, .unlockDispatch⟩, ⟨0, .dispatch mqttStart⟩, ⟨0, .takeMutex⟩, ⟨0, .check⟩, ⟨0, .execute⟩,
      ⟨0, .finish espOk⟩, ⟨1, .lockDispatch⟩, ⟨1, .setMode .none .none⟩]
    (∀ v ∈ ms, SerializedAuthority v.pre ∧ SerializedAuthority v.post) ∧ ms.length = 10 := by
  intro ms
  have hrun : IsRun routerStep Router.start ms := isRun_routerTrace _ _
  have hlocked : ∀ v ∈ ms, v.ev.act.isSetMode = true → v.pre.task v.ev.task = .transition := by
    decide +kernel
  refine ⟨serialized_authority hrun fun v hv => ?_, by decide +kernel⟩
  by_cases hset : v.ev.act.isSetMode = true
  · exact transition_keeps hrun hv (hlocked v hv hset)
  · intro newMode newOwner hact
    rw [hact] at hset
    exact absurd rfl hset

/-- Wi-Fi apply revokes the authority between the snapshot and the action. -/
theorem revoked_during_dispatch :
    ¬ ∀ ms, IsRun routerStep Router.start ms →
      ∀ v ∈ ms, SerializedAuthority v.pre ∧ SerializedAuthority v.post := by
  intro h
  let evs : List RouterEvent := [⟨1, .setMode .supervisory .mqtt⟩, ⟨0, .dispatch mqttStart⟩,
    ⟨0, .takeMutex⟩, ⟨0, .check⟩, ⟨1, .setMode .none .none⟩, ⟨0, .execute⟩]
  have hall := h _ (isRun_routerTrace Router.start evs)
  have hbad : ∃ v ∈ routerTrace Router.start evs,
      v.post.task 0 = .acting .start ⟨.supervisory, .mqtt, 2⟩ ∧
        v.post.authority ≠ ⟨.supervisory, .mqtt, 2⟩ := by
    decide +kernel
  obtain ⟨v, hv, hacting, hne⟩ := hbad
  exact hne ((hall v hv).2 0 _ _ hacting)

end Argus
