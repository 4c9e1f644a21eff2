import ArgusPump.FactoryReset
import ArgusPump.SealedPlant

/-!
# Tasks of the controller

Transactions that one task of the controller makes while the others go on: what a call of the
command router, of the authority manager or of the state manager's snapshot does, with any steps
of the others before it takes effect.  A transaction that finds the machine stopped with the
dispatch mutex held, and takes the authority away, has sealed the machine off until somebody
gives the authority out again.
-/

namespace Argus

open Interact

/-! ## Steps of the router -/

section RouterSteps

variable {w w' : Router} {t : Nat} {mode : ControlAuthority} {owner : AuthorityOwner}

theorem lockDispatch_step (h : routerStep w ⟨t, .lockDispatch⟩ w') :
    w'.task t = .transition ∧ w'.authority = w.authority := by
  obtain ⟨returned, h⟩ := h
  cases hphase : w.task t <;> simp only [Router.next, hphase, reduceCtorEq] at h
  split at h
  · cases h
    exact ⟨by rw [goto_task, if_pos rfl], rfl⟩
  · cases h

theorem unlockDispatch_step (h : routerStep w ⟨t, .unlockDispatch⟩ w') :
    w'.task t = .idle ∧ w'.authority = w.authority := by
  obtain ⟨returned, h⟩ := h
  cases hphase : w.task t <;> simp only [Router.next, hphase, reduceCtorEq] at h
  cases h
  exact ⟨by rw [goto_task, if_pos rfl], rfl⟩

theorem setMode_step (h : routerStep w ⟨t, .setMode mode owner⟩ w') :
    w'.task = w.task ∧ w'.authority = (w.authority.setMode mode owner).2 := by
  obtain ⟨returned, h⟩ := h
  cases hphase : w.task t <;> simp only [Router.next, hphase, reduceCtorEq] at h
  all_goals
    cases h
    exact ⟨rfl, rfl⟩

theorem task_of_other {ev : RouterEvent} (h : routerStep w ev w') (hne : t ≠ ev.task) :
    w'.task t = w.task t := by
  obtain ⟨hmove, -⟩ := routerStep_move h
  cases hmove with
  | estop => rfl
  | refused => rfl
  | setMode => rfl
  | call => rw [goto_task, if_neg hne]
  | acquire => rw [goto_task, if_neg hne]
  | pass => rw [goto_task, if_neg hne]
  | execute => rw [goto_task, if_neg hne]
  | release => rw [goto_task, if_neg hne]

end RouterSteps

/-! ## Calls of a task -/

/-- The step gives out the authority. -/
def PlantEvent.Opens (ev : PlantEvent) : Prop :=
  ∃ t mode owner, ev = .router ⟨t, .setMode mode owner⟩ ∧ mode ≠ .none ∧ mode ≠ .serviceTransition

/-- The step is one of the task's own. -/
def PlantEvent.IsOf (t : Nat) : PlantEvent → Prop
  | .router ev => ev.task = t
  | .operate u => u = t
  | .stopNormal | .machine _ => False

theorem closed_step {w p : Plant} {ev : PlantEvent} (hs : PlantStep w ev p) (hopens : ¬ ev.Opens)
    (hclosed : w.router.authority.Closed) : p.router.authority.Closed := by
  rcases plantStep_router (m := ⟨w, ev, p⟩) hs with ⟨hsame, -⟩ | ⟨⟨t, act⟩, rfl, hstep⟩
  · exact hsame ▸ hclosed
  by_cases hauthority : p.router.authority = w.router.authority
  · rwa [hauthority]
  obtain ⟨mode, owner, hact, hpair⟩ := (routerStep_move hstep).2 hauthority
  cases show act = .setMode mode owner from hact
  have hset := (setMode_step hstep).2
  unfold AuthoritySnapshot.setMode at hset
  rw [if_neg (not_not.mpr hpair)] at hset
  have hmode : p.router.authority.mode = mode := by
    rw [show p.router.authority = _ from hset]
  by_contra hopen
  refine hopens ⟨t, mode, owner, rfl, fun hnone => hopen (.inl ?_), fun htransition => hopen (.inr ?_)⟩
  · rw [hmode, hnone]
  · rw [hmode, htransition]

theorem plantStep_task {w p : Plant} {ev : PlantEvent} {t : Nat} (hs : PlantStep w ev p)
    (hother : ¬ ev.IsOf t) : p.router.task t = w.router.task t := by
  rcases plantStep_router (m := ⟨w, ev, p⟩) hs with ⟨hsame, -⟩ | ⟨rev, rfl, hstep⟩
  · rw [show p.router = w.router from hsame]
  · exact task_of_other hstep fun heq => hother heq.symm

theorem plantStep_of_router {w p : Plant} {ev : RouterEvent} (hs : PlantStep w (.router ev) p) :
    routerStep w.router ev p.router := by
  cases hs with
  | router h => exact h

/-- The controller's run so far. -/
structure PlantRun (cfg : ArgusConfig) (gen : StepGen) where
  moves : List PlantMove
  isRun : IsRun PlantStep (Plant.start cfg gen) moves

section Runs

variable {cfg : ArgusConfig} {gen : StepGen}

namespace PlantRun

def now (w : PlantRun cfg gen) : Plant := final (Plant.start cfg gen) w.moves

def push (w : PlantRun cfg gen) {ev : PlantEvent} {p : Plant} (h : PlantStep w.now ev p) :
    PlantRun cfg gen where
  moves := w.moves ++ [⟨w.now, ev, p⟩]
  isRun := (isRun_append _ _ _).mpr ⟨w.isRun, rfl, h, trivial⟩

variable {w : PlantRun cfg gen} {ev : PlantEvent} {p : Plant}

@[simp] theorem now_push (h : PlantStep w.now ev p) : (w.push h).now = p := by
  unfold now push
  rw [final_append]
  rfl

theorem ok (w : PlantRun cfg gen) : w.now.Ok :=
  (w.isRun.inv (Plant.ok_start cfg gen) fun _ hi hs => hi.step hs).2

end PlantRun

/-- What the other tasks do until a call of task `t` takes effect. -/
inductive Meanwhile (t : Nat) : PlantRun cfg gen → PlantRun cfg gen → Prop
  | refl (w : PlantRun cfg gen) : Meanwhile t w w
  | move {w w' : PlantRun cfg gen} {ev : PlantEvent} {p : Plant} (h : Meanwhile t w w')
      (hother : ¬ ev.IsOf t) (hs : PlantStep w'.now ev p) : Meanwhile t w (w'.push hs)

variable (t : Nat) (w : PlantRun cfg gen)

/-- The task makes a step of the router. -/
def TaskActs (act : RouterAct) (w' : PlantRun cfg gen) : Prop :=
  ∃ v p, ∃ hs : PlantStep (PlantRun.now v) (.router ⟨t, act⟩) p, Meanwhile t w v ∧ w' = v.push hs

/-- `argus_authority_mgr_set_mode`, with what it returns. -/
def TaskSets (mode : ControlAuthority) (owner : AuthorityOwner) (err : EspErr) (w' : PlantRun cfg gen) :
    Prop :=
  ∃ v p, ∃ hs : PlantStep (PlantRun.now v) (.router ⟨t, .setMode mode owner⟩) p, Meanwhile t w v ∧
    w' = v.push hs ∧ err = (v.now.router.authority.setMode mode owner).1

/-- `argus_state_mgr_stop_normal`: it waits too long for `s_command_mutex`, or its operation runs. -/
def TaskStops (err : EspErr) (w' : PlantRun cfg gen) : Prop :=
  (err = espErrTimeout ∧ Meanwhile t w w') ∨
    ∃ v p, ∃ hs : PlantStep (PlantRun.now v) .stopNormal p, Meanwhile t w v ∧ Meanwhile t (v.push hs) w'

/-- `argus_state_mgr_get_snapshot`: the state is read with no operation in flight, the trajectory
before that. -/
def TaskSees (snap : StateSnapshot) (w' : PlantRun cfg gen) : Prop :=
  Meanwhile t w w' ∧ w'.now.machine.pending = none ∧
    snap.machineState = w'.now.machine.core.machineState ∧
    snap.estopLatched = w'.now.machine.core.estopLatched

variable {t w}

/-- With no step of the others before it. -/
theorem taskActs_alone {act : RouterAct} {returned : Option EspErr} {router : Router}
    (h : w.now.router.next ⟨t, act⟩ = some (returned, router)) (hact : act.isFinish = false) :
    ∃ w', TaskActs t w act w' ∧ w'.now.router = router ∧ w'.now.machine = w.now.machine := by
  have hs : PlantStep w.now (.router ⟨t, act⟩)
      ⟨router, w.now.machine, if act = .execute then .before else w.now.stage⟩ := by
    refine .router ⟨returned, h⟩ fun err hfinish => ?_
    rw [show act = .finish err from hfinish] at hact
    cases hact
  refine ⟨w.push hs, ⟨w, _, hs, .refl w, rfl⟩, ?_, ?_⟩ <;> rw [PlantRun.now_push]

theorem taskLocks_alone (hidle : w.now.router.task t = .idle) (hfree : w.now.router.dispatchMutex = none) :
    ∃ w', TaskActs t w .lockDispatch w' ∧ w'.now.router.task t = .transition ∧
      w'.now.router.authority = w.now.router.authority ∧ w'.now.machine = w.now.machine := by
  have hnext : w.now.router.next ⟨t, .lockDispatch⟩ =
      some (none, { w.now.router with dispatchMutex := some t }.goto t .transition) := by
    simp only [Router.next, hidle, hfree, if_true]
  obtain ⟨w', hacts, hrouter, hmachine⟩ := taskActs_alone hnext rfl
  refine ⟨w', hacts, ?_, ?_, hmachine⟩ <;> rw [hrouter]
  · rw [goto_task, if_pos rfl]
  · rfl

theorem taskUnlocks_alone (ht : w.now.router.task t = .transition) :
    ∃ w', TaskActs t w .unlockDispatch w' ∧ w'.now.router.task t = .idle ∧
      w'.now.router.dispatchMutex = none ∧ w'.now.router.authority = w.now.router.authority ∧
      w'.now.machine = w.now.machine := by
  have hnext : w.now.router.next ⟨t, .unlockDispatch⟩ =
      some (none, { w.now.router with dispatchMutex := none }.goto t .idle) := by
    simp only [Router.next, ht]
  obtain ⟨w', hacts, hrouter, hmachine⟩ := taskActs_alone hnext rfl
  refine ⟨w', hacts, ?_, ?_, ?_, hmachine⟩ <;> rw [hrouter]
  · rw [goto_task, if_pos rfl]
  · rfl
  · rfl

theorem taskSets_alone (mode : ControlAuthority) (owner : AuthorityOwner)
    (ht : w.now.router.task t = .transition) :
    ∃ w', TaskSets t w mode owner (w.now.router.authority.setMode mode owner).1 w' ∧
      w'.now.router.task t = .transition ∧
      w'.now.router.authority = (w.now.router.authority.setMode mode owner).2 ∧
      w'.now.machine = w.now.machine := by
  let router := { w.now.router with authority := (w.now.router.authority.setMode mode owner).2 }
  have hnext : routerStep w.now.router ⟨t, .setMode mode owner⟩ router := by
    refine ⟨some (w.now.router.authority.setMode mode owner).1, ?_⟩
    simp only [Router.next, ht, router]
  have hs : PlantStep w.now (.router ⟨t, .setMode mode owner⟩) ⟨router, w.now.machine, w.now.stage⟩ :=
    .router hnext nofun
  refine ⟨w.push hs, ⟨w, _, hs, .refl w, rfl, rfl⟩, ?_, ?_, ?_⟩ <;> rw [PlantRun.now_push]
  exact ht

/-- A stop of a machine that is stopped. -/
theorem taskStops_alone (hpend : w.now.machine.pending = none) (hmutex : w.now.machine.mutex = .free)
    (hstopped : w.now.machine.core.machineState = .unlocked ∨
      w.now.machine.core.machineState = .holding) :
    ∃ w', TaskStops t w espOk w' ∧ w'.now.router = w.now.router ∧ w'.now.machine.pending = none ∧
      w'.now.machine.core = w.now.machine.core := by
  have hprog : CoreOp.stopNormal.prog w.now.machine.core = .ret (espOk, w.now.machine.core) := by
    change StateCore.stopNormal _ = _
    unfold StateCore.stopNormal
    rcases hstopped with h | h <;> rw [h] <;> rfl
  have hs : PlantStep w.now .stopNormal ⟨w.now.router, _, w.now.stage⟩ :=
    .stopNormal (.operation .stopNormal hpend hmutex nofun nofun)
  rw [hprog] at hs
  refine ⟨w.push hs, .inr ⟨w, _, hs, .refl w, .refl _⟩, ?_, ?_, ?_⟩ <;> rw [PlantRun.now_push]
  · rfl
  · rfl

/-- A snapshot of a machine that nothing is done to. -/
theorem taskSees_alone {snap : StateSnapshot} (hpend : w.now.machine.pending = none)
    (hstate : snap.machineState = w.now.machine.core.machineState)
    (hlatch : snap.estopLatched = w.now.machine.core.estopLatched) : TaskSees t w snap w :=
  ⟨.refl w, hpend, hstate, hlatch⟩

end Runs

/-- The controller that has just started. -/
def bootRun : PlantRun argusConfig (.boot argusConfig) := ⟨[], trivial⟩

/-- Its browser may be given the authority. -/
theorem bootRun_serves : ∃ w : PlantRun argusConfig (.boot argusConfig), w.now.router.task 1 = .idle ∧
    w.now.router.dispatchMutex = none ∧ w.now.router.authority.mode = .localService ∧
    w.now.router.authority.owner = .browser ∧ w.now.machine = bootRun.now.machine := by
  have hidle : bootRun.now.router.task 1 = .idle := rfl
  obtain ⟨w₁, -, htask₁, -, hmachine₁⟩ := taskLocks_alone hidle rfl
  obtain ⟨w₂, -, htask₂, hauthority₂, hmachine₂⟩ := taskSets_alone .localService .browser htask₁
  obtain ⟨w₃, -, htask₃, hfree₃, hauthority₃, hmachine₃⟩ := taskUnlocks_alone htask₂
  refine ⟨w₃, htask₃, hfree₃, ?_, ?_, ?_⟩
  · rw [hauthority₃, hauthority₂]
    rfl
  · rw [hauthority₃, hauthority₂]
    rfl
  · rw [hmachine₃, hmachine₂, hmachine₁]

/-! ## Sealed off since -/

section Sealing

variable {cfg : ArgusConfig} {gen : StepGen} {t : Nat} {l r w w' w₀ : PlantRun cfg gen}

/-- `w` is no later in the run than `w'`. -/
def PlantRun.Before (w w' : PlantRun cfg gen) : Prop := w.moves <+: w'.moves

theorem before_refl (w : PlantRun cfg gen) : w.Before w := List.prefix_rfl

theorem before_push {ev : PlantEvent} {p : Plant} (h : w₀.Before w) (hs : PlantStep w.now ev p) :
    w₀.Before (w.push hs) :=
  h.trans (List.prefix_append _ _)

/-- The steps from `r` to `w` are all such. -/
def Through (P : PlantMove → Prop) (r w : PlantRun cfg gen) : Prop :=
  ∃ js, w.moves = r.moves ++ js ∧ ∀ m ∈ js, P m

theorem through_refl (P : PlantMove → Prop) (w : PlantRun cfg gen) : Through P w w :=
  ⟨[], (List.append_nil _).symm, by simp⟩

theorem through_push {P : PlantMove → Prop} {ev : PlantEvent} {p : Plant} {hs : PlantStep w.now ev p}
    (hbefore : r.Before w) : Through P r (w.push hs) ↔ Through P r w ∧ P ⟨w.now, ev, p⟩ := by
  obtain ⟨ks, hks⟩ := hbefore
  constructor
  · rintro ⟨js, hmoves, hall⟩
    have hjs : js = ks ++ [⟨w.now, ev, p⟩] := by
      rw [show (w.push hs).moves = w.moves ++ [⟨w.now, ev, p⟩] from rfl, ← hks,
        List.append_assoc] at hmoves
      exact (List.append_cancel_left hmoves).symm
    subst hjs
    exact ⟨⟨ks, hks.symm, fun m hm => hall m (List.mem_append_left _ hm)⟩, hall _ (by simp)⟩
  · rintro ⟨⟨js, hmoves, hall⟩, hlast⟩
    refine ⟨js ++ [⟨w.now, ev, p⟩], ?_, fun m hm => ?_⟩
    · rw [← List.append_assoc, ← hmoves]
      rfl
    · rcases List.mem_append.mp hm with hm | hm
      · exact hall m hm
      · exact List.mem_singleton.mp hm ▸ hlast

/-- The authority has not been given out. -/
abbrev Unopened : PlantRun cfg gen → PlantRun cfg gen → Prop := Through fun m => ¬ m.ev.Opens

/-- Sealed off all along from `l`. -/
def SealedSince (l w : PlantRun cfg gen) : Prop :=
  w.now.Sealed ∧ Through (fun m => m.post.Sealed ∧ ∀ x ∈ m.ev.calls, Traj.still x.1) l w

theorem SealedSince.push {ev : PlantEvent} {p : Plant} (hbefore : l.Before w) (h : SealedSince l w)
    (hs : PlantStep w.now ev p) (hshut : p.router.Shut) : SealedSince l (w.push hs) := by
  have hnext := Plant.Sealed.step (m := ⟨w.now, ev, p⟩) h.1 hs hshut
  refine ⟨?_, (through_push hbefore).mpr ⟨h.2, hnext⟩⟩
  rw [PlantRun.now_push]
  exact hnext.1

/-- No dispatch has been let by since `r`, unless the authority was given out. -/
def WithdrawnAt (r w : PlantRun cfg gen) : Prop :=
  r.Before w ∧ (Unopened r w → w.now.router.Sealed ∧ w.now.router.authority.Closed)

theorem WithdrawnAt.push {ev : PlantEvent} {p : Plant} (h : WithdrawnAt r w) (hs : PlantStep w.now ev p) :
    WithdrawnAt r (w.push hs) := by
  obtain ⟨hbefore, himp⟩ := h
  refine ⟨before_push hbefore hs, fun hopens => ?_⟩
  obtain ⟨hopens, hopen⟩ := (through_push hbefore).mp hopens
  obtain ⟨hsealed, hclosed⟩ := himp hopens
  have hpost := closed_step hs hopen hclosed
  rw [PlantRun.now_push]
  refine ⟨?_, hpost⟩
  rcases plantStep_router (m := ⟨w.now, ev, p⟩) hs with ⟨hsame, -⟩ | ⟨rev, -, hstep⟩
  · rw [show p.router = w.now.router from hsame]
    exact hsealed
  · exact hsealed.step hstep (.inl hpost)

/-- Shown stopped at `l`, the authority taken away at `r`, and sealed off from `l` on, unless it was
given out after `r`. -/
structure SealedOff (l r w : PlantRun cfg gen) : Prop where
  stopped : l.now.machine.core.machineState = .unlocked ∨ l.now.machine.core.machineState = .holding
  before : l.Before r
  withdrawn : WithdrawnAt r w
  since : Unopened r w → SealedSince l w

theorem SealedOff.push {ev : PlantEvent} {p : Plant} (h : SealedOff l r w) (hs : PlantStep w.now ev p) :
    SealedOff l r (w.push hs) where
  stopped := h.stopped
  before := h.before
  withdrawn := h.withdrawn.push hs
  since hopens := by
    have hclosed := ((h.withdrawn.push hs).2 hopens).2
    rw [PlantRun.now_push] at hclosed
    have hbefore := List.IsPrefix.trans h.before h.withdrawn.1
    exact (h.since ((through_push h.withdrawn.1).mp hopens).1).push hbefore hs (.inl hclosed)

theorem Meanwhile.trans {w'' : PlantRun cfg gen} (h : Meanwhile t w w') (h' : Meanwhile t w' w'') :
    Meanwhile t w w'' := by
  induction h' with
  | refl => exact h
  | move _ hother hs ih => exact ih.move hother hs

theorem meanwhile_task (h : Meanwhile t w w') : w'.now.router.task t = w.now.router.task t := by
  induction h with
  | refl => rfl
  | move _ hother hs ih => rw [PlantRun.now_push, plantStep_task hs hother, ih]

theorem meanwhile_before (h : Meanwhile t w w') : w.Before w' := by
  induction h with
  | refl => exact before_refl w
  | move _ _ hs ih => exact before_push ih hs

/-- While the task has the dispatch mutex, what is sealed stays so. -/
theorem meanwhile_sealed (h : Meanwhile t w w') (ht : w.now.router.task t = .transition)
    (hbefore : l.Before w) (hsince : SealedSince l w) : SealedSince l w' := by
  induction h with
  | refl => exact hsince
  | move h hother hs ih =>
    refine ih.push (hbefore.trans (meanwhile_before h)) hs (.inr ⟨t, ?_⟩)
    rw [plantStep_task hs hother, meanwhile_task h, ht]

/-- Nobody is past a snapshot while the task has the dispatch mutex. -/
theorem quiet_of_transition (w : PlantRun cfg gen) (ht : w.now.router.task t = .transition) (u : Nat) :
    (w.now.router.task u).midDispatch = false := by
  by_contra hmid
  rw [Bool.not_eq_false] at hmid
  have hmine := w.ok.mutex t (by rw [ht]; rfl)
  have hother := w.ok.mutex u (RouterPhase.inside_of_midDispatch hmid)
  obtain rfl := Option.some.inj (hmine.symm.trans hother)
  rw [ht] at hmid
  cases hmid

/-! ## Transactions -/

/-- Kept by every step but a mode change of the task's own. -/
class Lasting (t : Nat) (P : PlantRun cfg gen → Prop) : Prop where
  push {w : PlantRun cfg gen} {ev : PlantEvent} {p : Plant} (hs : PlantStep w.now ev p)
    (hev : ∀ mode owner, ev ≠ .router ⟨t, .setMode mode owner⟩) (h : P w) : P (w.push hs)

/-- Kept by every step. -/
class Permanent (P : PlantRun cfg gen → Prop) : Prop where
  push {w : PlantRun cfg gen} {ev : PlantEvent} {p : Plant} (hs : PlantStep w.now ev p) (h : P w) :
    P (w.push hs)

instance {P : PlantRun cfg gen → Prop} [Permanent P] : Lasting t P where
  push hs _ h := Permanent.push hs h

/-- The task is in the phase, and `P` holds. -/
structure InPhase (t : Nat) (P : PlantRun cfg gen → Prop) (phase : RouterPhase) (w : PlantRun cfg gen) :
    Prop where
  task : w.now.router.task t = phase
  holds : P w

namespace InPhase

variable {P : PlantRun cfg gen → Prop} {phase phase' : RouterPhase} [Lasting t P]

theorem meanwhile (h : InPhase t P phase w) (hm : Meanwhile t w w') : InPhase t P phase w' := by
  refine ⟨(meanwhile_task hm).trans h.task, ?_⟩
  induction hm with
  | refl => exact h.holds
  | move _ hother hs ih =>
    refine Lasting.push (t := t) hs (fun mode owner hev => hother ?_) ih
    rw [hev]
    rfl

theorem acts {act : RouterAct} (h : InPhase t P phase w) (ha : TaskActs t w act w')
    (hact : ∀ mode owner, act ≠ .setMode mode owner)
    (hnext : ∀ {u u' : Router}, routerStep u ⟨t, act⟩ u' → u'.task t = phase') :
    InPhase t P phase' w' := by
  obtain ⟨v, p, hs, hm, rfl⟩ := ha
  refine ⟨?_, Lasting.push (t := t) hs (fun mode owner hev => ?_) (h.meanwhile hm).holds⟩
  · rw [PlantRun.now_push]
    exact hnext (plantStep_of_router hs)
  · cases hev
    exact hact mode owner rfl

theorem lock (h : InPhase t P phase w) (ha : TaskActs t w .lockDispatch w') :
    InPhase t P .transition w' :=
  h.acts ha nofun fun hs => (lockDispatch_step hs).1

theorem unlock (h : InPhase t P phase w) (ha : TaskActs t w .unlockDispatch w') : InPhase t P .idle w' :=
  h.acts ha nofun fun hs => (unlockDispatch_step hs).1

omit [Lasting t P] in
theorem sets [Permanent P] {mode : ControlAuthority} {owner : AuthorityOwner} {err : EspErr}
    (h : InPhase t P phase w) (hsets : TaskSets t w mode owner err w') : InPhase t P phase w' := by
  obtain ⟨v, p, hs, hm, rfl, -⟩ := hsets
  have hv := h.meanwhile hm
  refine ⟨?_, Permanent.push hs hv.holds⟩
  rw [PlantRun.now_push, (setMode_step (plantStep_of_router hs)).1, hv.task]

theorem stops {err : EspErr} [Permanent P] (h : InPhase t P phase w) (hstops : TaskStops t w err w') :
    InPhase t P phase w' := by
  rcases hstops with ⟨-, hm⟩ | ⟨v, p, hs, hm, hm'⟩
  · exact h.meanwhile hm
  · refine InPhase.meanwhile ⟨?_, Permanent.push hs (h.meanwhile hm).holds⟩ hm'
    rw [PlantRun.now_push, plantStep_task hs (fun h => h), (h.meanwhile hm).task]

end InPhase

/-- The task has left the authority alone since `w₀`. -/
def Untouched (t : Nat) (w₀ w : PlantRun cfg gen) : Prop :=
  w₀.Before w ∧ Through (fun m => ∀ mode owner, m.ev ≠ .router ⟨t, .setMode mode owner⟩) w₀ w

instance : Lasting t (Untouched t w₀) where
  push hs hev h := ⟨before_push h.1 hs, (through_push h.1).mpr ⟨h.2, hev⟩⟩

/-- A transaction that began at `w₀` has taken the authority away. -/
def Withdrawn (w₀ w : PlantRun cfg gen) : Prop := ∃ r, w₀.Before r ∧ WithdrawnAt r w

theorem Withdrawn.before (h : Withdrawn w₀ w) : w₀.Before w := by
  obtain ⟨r, hr, h⟩ := h
  exact List.IsPrefix.trans hr h.1

instance : Permanent (Withdrawn w₀) where
  push hs h := by
    obtain ⟨r, hr, h⟩ := h
    exact ⟨r, hr, h.push hs⟩

/-- And from a machine that it has found stopped, with the dispatch mutex held all along. -/
def Revoked (w₀ w : PlantRun cfg gen) : Prop := ∃ l r, w₀.Before l ∧ SealedOff l r w

instance : Permanent (Revoked w₀) where
  push hs h := by
    obtain ⟨l, r, hl, h⟩ := h
    exact ⟨l, r, hl, h.push hs⟩

theorem Begun.start (h : w₀.now.router.task t = .idle) : InPhase t (Untouched t w₀) .idle w₀ :=
  ⟨h, before_refl w₀, through_refl _ w₀⟩

/-- A snapshot with the dispatch mutex held that shows the machine stopped. -/
theorem sealedSince_of_sees {snap : StateSnapshot} (ht : w.now.router.task t = .transition)
    (hsees : TaskSees t w snap w')
    (hstate : snap.machineState = .unlocked ∨ snap.machineState = .holding) : SealedSince w' w' := by
  obtain ⟨hm, hpend, hshown, -⟩ := hsees
  have ht' := (meanwhile_task hm).trans ht
  rw [hshown] at hstate
  exact ⟨w'.ok.sealed (quiet_of_transition w' ht') (.inr ⟨t, ht'⟩) hpend hstate, through_refl _ w'⟩

section Sets

variable {mode : ControlAuthority} {owner : AuthorityOwner} {err : EspErr}

/-- A mode change that takes the authority away. -/
theorem closed_of_sets (hsets : TaskSets t w mode owner err w')
    (hclosed : mode = .none ∨ mode = .serviceTransition)
    (hpair : authorityValidatePair mode owner = espOk) :
    err = espOk ∧ w'.now.router.authority.Closed ∧ w'.now.router.task t = w.now.router.task t := by
  obtain ⟨v, p, hs, hm, rfl, herr⟩ := hsets
  obtain ⟨htask, hauthority⟩ := setMode_step (plantStep_of_router hs)
  unfold AuthoritySnapshot.setMode at herr hauthority
  rw [if_neg (not_not.mpr hpair)] at herr hauthority
  rw [PlantRun.now_push]
  refine ⟨herr, ?_, ?_⟩
  · unfold AuthoritySnapshot.Closed
    rw [hauthority]
    exact hclosed
  · rw [htask, meanwhile_task hm]

/-- With the dispatch mutex held. -/
theorem withdrawn_of_sets (hw : w₀.Before w) (ht : w.now.router.task t = .transition)
    (hsets : TaskSets t w mode owner err w') (hclosed : mode = .none ∨ mode = .serviceTransition)
    (hpair : authorityValidatePair mode owner = espOk) :
    err = espOk ∧ InPhase t (Withdrawn w₀) .transition w' := by
  obtain ⟨herr, hnow, htask⟩ := closed_of_sets hsets hclosed hpair
  rw [ht] at htask
  refine ⟨herr, htask, w', ?_, before_refl w', fun _ => ⟨⟨w'.ok.mutex, w'.ok.gated, ?_, .inl hnow⟩, hnow⟩⟩
  · obtain ⟨v, p, hs, hm, rfl, -⟩ := hsets
    exact before_push (hw.trans (meanwhile_before hm)) hs
  · exact quiet_of_transition w' htask

/-- And after a snapshot that shows the machine stopped. -/
theorem revoked_of_sets (hl : w₀.Before l) (hbefore : l.Before w)
    (hstopped : l.now.machine.core.machineState = .unlocked ∨ l.now.machine.core.machineState = .holding)
    (ht : w.now.router.task t = .transition) (hsince : SealedSince l w)
    (hsets : TaskSets t w mode owner err w') (hclosed : mode = .none ∨ mode = .serviceTransition)
    (hpair : authorityValidatePair mode owner = espOk) :
    err = espOk ∧ InPhase t (Revoked w₀) .transition w' := by
  obtain ⟨herr, htask, r, hr, hwithdrawn⟩ := withdrawn_of_sets hbefore ht hsets hclosed hpair
  refine ⟨herr, htask, l, r, hl, hstopped, hr, hwithdrawn, fun hopens => ?_⟩
  obtain ⟨-, hnow, -⟩ := closed_of_sets hsets hclosed hpair
  obtain ⟨v, p, hs, hm, rfl, -⟩ := hsets
  rw [PlantRun.now_push] at hnow
  exact (meanwhile_sealed hm ht hbefore hsince).push (hbefore.trans (meanwhile_before hm)) hs (.inl hnow)

end Sets

end Sealing

end Argus
