import ArgusPump.Plant

/-!
# A controller that is sealed off

What keeps the machine at rest when nobody is to move it: no dispatch past its snapshot, and
nobody with the authority or the dispatch mutex with a transition.  An emergency stop and the
network manager's own `stop_normal` may come at any time, and faults.

    shut, no dispatch under way, the machine shown stopped → so it stays, at rest, and nothing
      moves the motor, while the router is shut                                  (sealed_run)
-/

namespace Argus

open Interact

/-! ## A machine that is sealed off -/

/-- The states that an emergency stop, a `stop_normal` and a fault are all that can change. -/
def MachineState.halted (s : MachineState) : Prop :=
  s = .unlocked ∨ s = .holding ∨ s = .emergencyStopped ∨ s = .faulted

theorem StateCore.stopNormal_halted {core : StateCore} (h : core.machineState.halted) :
    ∃ a, core.stopNormal = .ret a ∧ a.2.machineState = core.machineState := by
  unfold stopNormal
  rcases h with h | h | h | h
  · rw [if_neg (by rw [h]; decide), if_pos (.inl h)]
    exact ⟨_, rfl, rfl⟩
  · rw [if_neg (by rw [h]; decide), if_pos (.inr (.inl h))]
    exact ⟨_, rfl, rfl⟩
  · rw [if_pos (.inl h)]
    exact ⟨_, rfl, rfl⟩
  · rw [if_pos (.inr h)]
    exact ⟨_, rfl, rfl⟩

/-- At rest, with nothing but an emergency stop in flight. -/
structure World.Still (w : World) : Prop where
  atRest : w.traj.AtRest
  state : w.core.machineState.halted
  pending : ∀ p, w.pending = some p → ∃ q k, p = .call q k ∧ w.core = q.core ∧ EstopPending q k

theorem World.Still.settle_ret {w : World} {a : EspErr × StateCore} (hrest : w.traj.AtRest)
    (hstate : a.2.machineState.halted) : (w.settle (.ret a)).Still where
  atRest := hrest
  state := hstate
  pending p hp := by
    have hnone : (none : Option Pending) = some p := hp
    cases hnone

theorem still_step {w w' : World} {ev : MotionEvent} (hi : w.Still) (hs : MotionStep w ev w')
    (hop : ∀ op, ev.task = .operation op → op = .estop ∨ op = .stopNormal) :
    w'.Still ∧ ∀ x ∈ ev.calls, Traj.still x.1 := by
  cases hs with
  | operation op hpend hmutex hne hev =>
    obtain rfl := (hop op rfl).resolve_left hne
    obtain ⟨a, hret, hstate⟩ := StateCore.stopNormal_halted hi.state
    refine ⟨?_, by simp⟩
    change ({ w with mutex := .operation }.settle w.core.stopNormal).Still
    rw [hret]
    exact .settle_ret hi.atRest (hstate ▸ hi.state)
  | estop hpend =>
    refine ⟨?_, by simp⟩
    rcases estop_pending w.core with ⟨err, hret⟩ | ⟨q, k, hask, hestop⟩
    · rw [hret]
      exact .settle_ret hi.atRest (.inr (.inr (.inl (StateCore.estopped_machineState _))))
    · rw [hask]
      refine ⟨hi.atRest, .inr (.inr (.inl hestop.estopped)), fun p hp => ?_⟩
      cases hp
      exact ⟨q, k, rfl, rfl, hestop⟩
  | @callback q k calls v traj gen hpend hd =>
    obtain ⟨q', k', heq, hcore, hestop⟩ := hi.pending _ hpend
    cases heq
    have hproduces : q.callback.producesMotion = false := by
      rw [hestop.callback]
      rfl
    have hrest := (callback_effect hd).stops (.inr (.inl hestop.callback))
    refine ⟨?_, callback_still hd hproduces⟩
    rw [if_neg (by rw [hestop.callback]; simp), hestop.rest]
    exact .settle_ret hrest (hcore ▸ hi.state)
  | recoverDelay hpend hd =>
    obtain ⟨q', k', heq, -⟩ := hi.pending _ hpend
    cases heq
  | snapshot hmutex hd =>
    obtain ⟨⟨htraj, -⟩, hcalls⟩ := hd.of_wpT (Traj.getSnapshot_wp w.traj)
    dsimp only at htraj
    subst htraj
    exact ⟨⟨hi.atRest, hi.state, hi.pending⟩, hcalls⟩
  | @evaluate s hpend hmutex =>
    refine ⟨⟨hi.atRest, ?_, fun p hp => by rw [show w.pending = some p from hp] at hpend; cases hpend⟩,
      by simp⟩
    have hstate := hi.state
    rcases StateCore.evaluatePeriodic_cases w.core s.appliedRpmMilli s.generatedRpmMilli s.rampActive
      s.latchedError with heq | ⟨-, -, -, heq⟩ | ⟨hm, -⟩ | ⟨hm, -, -⟩
    · rwa [heq]
    · rw [heq]
      exact .inr (.inr (.inr rfl))
    · rw [hm] at hstate
      rcases hstate with h | h | h | h <;> cases h
    · rw [hm] at hstate
      rcases hstate with h | h | h | h <;> cases h
  | tick hd =>
    obtain ⟨hrest, hcalls⟩ := hd.of_wpT (Traj.tick_rest w.traj hi.atRest)
    exact ⟨⟨hrest, hi.state, hi.pending⟩, hcalls⟩
  | alarm ha => exact ⟨⟨hi.atRest, hi.state, hi.pending⟩, by simp⟩

/-- Nobody has the authority. -/
def AuthoritySnapshot.Closed (snap : AuthoritySnapshot) : Prop :=
  snap.mode = .none ∨ snap.mode = .serviceTransition

/-- Nobody has the authority, or a transition has the dispatch mutex. -/
def Router.Shut (w : Router) : Prop := w.authority.Closed ∨ ∃ t, w.task t = .transition

/-- The router lets no dispatch by and has none under way. -/
structure Router.Sealed (w : Router) : Prop where
  mutex : MutexInv w
  gated : w.Gated fun _ _ => True
  quiet : ∀ t, (w.task t).midDispatch = false
  shut : w.Shut

theorem Router.Sealed.refuses {w : Router} (hi : w.Sealed) {t : Nat} {env : CommandEnvelope}
    (ht : w.task t = .locked env) : dispatchGate env w.authority ≠ espOk := by
  intro hgate
  have hgated := hi.gated t
  rw [ht] at hgated
  obtain ⟨-, hadmits⟩ := gate_admits hgated.2 hgate
  rcases hi.shut with (hmode | hmode) | ⟨u, hu⟩
  · rcases hadmits with ⟨h, -⟩ | ⟨h, -⟩ | ⟨h, -⟩ <;> rw [hmode] at h <;> cases h
  · rcases hadmits with ⟨h, -⟩ | ⟨h, -⟩ | ⟨h, -⟩ <;> rw [hmode] at h <;> cases h
  · -- two tasks with the mutex
    have hmine := hi.mutex t (by rw [ht]; rfl)
    have hother := hi.mutex u (by rw [hu]; rfl)
    obtain rfl := Option.some.inj (hmine.symm.trans hother)
    rw [ht] at hu
    cases hu

theorem Router.Sealed.step {w w' : Router} {ev : RouterEvent} (hi : w.Sealed) (hs : routerStep w ev w')
    (hshut : w'.Shut) : w'.Sealed := by
  refine ⟨hi.mutex.step hs, gated_step hi.gated hs fun _ _ => trivial, ?_, hshut⟩
  have hquiet (phase : RouterPhase) (hphase : phase.midDispatch = false) (w₀ : Router)
      (hw₀ : w₀.task = w.task) (t u : Nat) : ((w₀.goto t phase).task u).midDispatch = false := by
    rw [goto_task, hw₀]
    split
    · exact hphase
    · exact hi.quiet u
  obtain ⟨hmove, -⟩ := routerStep_move hs
  cases hmove with
  | estop => exact hi.quiet
  | call env _ => exact hquiet _ rfl w rfl _
  | acquire phase _ hmid => exact hquiet phase hmid _ rfl _
  | pass env hlocked hgate => exact absurd hgate (hi.refuses hlocked)
  | execute env snap hchecked =>
    have hmid := hi.quiet ev.task
    rw [hchecked] at hmid
    cases hmid
  | release _ => exact hquiet _ rfl _ rfl _
  | refused => exact hi.quiet
  | setMode => exact hi.quiet

/-- What a run keeps whatever the authority does. -/
structure Plant.Ok (w : Plant) : Prop where
  mutex : MutexInv w.router
  gated : w.router.Gated fun _ _ => True
  rest : RestInv w.machine

theorem Plant.ok_start (cfg : ArgusConfig) (gen : StepGen) : (Plant.start cfg gen).Ok :=
  ⟨nofun, fun _ => trivial, .inl (worldInv_init cfg gen)⟩

theorem Plant.Ok.step {m : PlantMove} (hi : m.pre.Ok) (hs : PlantStep m.pre m.ev m.post) : m.post.Ok := by
  have hrest : RestInv m.post.machine := by
    rcases plantStep_machine hs with ⟨hsame, -⟩ | ⟨ev, hstep, -⟩
    · exact hsame ▸ hi.rest
    · exact restInv_step (m := ⟨m.pre.machine, ev, m.post.machine⟩) hi.rest hstep
  rcases plantStep_router hs with ⟨hsame, -⟩ | ⟨ev, -, hstep⟩
  · exact ⟨hsame ▸ hi.mutex, hsame ▸ hi.gated, hrest⟩
  · exact ⟨hi.mutex.step hstep, gated_step hi.gated hstep fun _ _ => trivial, hrest⟩

/-- Sealed off, with the machine at rest. -/
structure Plant.Sealed (w : Plant) : Prop where
  router : w.router.Sealed
  machine : w.machine.Still

/-- A machine that is shown stopped is at rest. -/
theorem Plant.Ok.atRest {w : Plant} (hi : w.Ok) (hpend : w.machine.pending = none)
    (hstate : w.machine.core.machineState = .unlocked ∨ w.machine.core.machineState = .holding) :
    w.machine.traj.AtRest := by
  have hholds := hi.rest.holds hpend (by rcases hstate with h | h <;> rw [h] <;> decide)
  rcases hstate with h | h
  · rw [h] at hholds
    exact hholds
  · rw [h] at hholds
    exact hholds

/-- And behind a router that is shut, sealed off. -/
theorem Plant.Ok.sealed {w : Plant} (hi : w.Ok) (hquiet : ∀ t, (w.router.task t).midDispatch = false)
    (hshut : w.router.Shut) (hpend : w.machine.pending = none)
    (hstate : w.machine.core.machineState = .unlocked ∨ w.machine.core.machineState = .holding) :
    w.Sealed := by
  refine ⟨⟨hi.mutex, hi.gated, hquiet, hshut⟩, hi.atRest hpend hstate, hstate.imp id .inl, fun p hp => ?_⟩
  rw [hpend] at hp
  cases hp

theorem Plant.Sealed.step {m : PlantMove} (hi : m.pre.Sealed) (hs : PlantStep m.pre m.ev m.post)
    (hshut : m.post.router.Shut) : m.post.Sealed ∧ ∀ x ∈ m.ev.calls, Traj.still x.1 := by
  have hrouter : m.post.router.Sealed := by
    rcases plantStep_router hs with ⟨hsame, -⟩ | ⟨ev, -, hstep⟩
    · rw [hsame]
      exact hi.router
    · exact hi.router.step hstep hshut
  rcases plantStep_machine hs with ⟨hsame, hcalls⟩ | ⟨ev, hstep, hcalls, hop⟩
  · refine ⟨⟨hrouter, hsame ▸ hi.machine⟩, ?_⟩
    rw [hcalls]
    simp
  · obtain ⟨hstill, hcallsStill⟩ := still_step hi.machine hstep fun op htask => by
      rcases hop op htask with h | h | ⟨t, action, snap, -, hacting, -⟩
      · exact .inl h
      · exact .inr h
      · have hmid := hi.router.quiet t
        rw [hacting] at hmid
        cases hmid
    exact ⟨⟨hrouter, hstill⟩, hcalls ▸ hcallsStill⟩

/-- **Sealed off**: from a moment at which the machine is shown stopped, no dispatch is past its
snapshot and the router is shut, the machine stays at rest and nothing moves the motor, in any
state of any later run until the router is open. -/
theorem sealed_run {cfg : ArgusConfig} {gen : StepGen} {l mid : List PlantMove}
    (h : IsRun PlantStep (Plant.start cfg gen) (l ++ mid))
    (hquiet : ∀ t, ((final (Plant.start cfg gen) l).router.task t).midDispatch = false)
    (hshut : (final (Plant.start cfg gen) l).router.Shut)
    (hpend : (final (Plant.start cfg gen) l).machine.pending = none)
    (hstate : (final (Plant.start cfg gen) l).machine.core.machineState = .unlocked ∨
      (final (Plant.start cfg gen) l).machine.core.machineState = .holding)
    (hmid : ∀ m ∈ mid, m.post.router.Shut) :
    ∀ m ∈ mid, m.post.Sealed ∧ ∀ x ∈ m.ev.calls, Traj.still x.1 := by
  obtain ⟨hl, hr⟩ := (isRun_append _ l mid).mp h
  have hok := (hl.inv (I := Plant.Ok) (Plant.ok_start cfg gen) fun _ hi hs => hi.step hs).2
  have hinv := (hr.inv_of (I := Plant.Sealed) (hok.sealed hquiet hshut hpend hstate) hmid
    fun _ hi hs hshut => (hi.step hs hshut).1).1
  exact fun m hm => ⟨(hinv m hm).2, ((hinv m hm).1.step (hr.step_of_mem m hm) (hmid m hm)).2⟩

/-- A start without authority. -/
def refusedRun : List PlantMove := plantTrace (Plant.start argusConfig (.boot argusConfig))
  [.router ⟨0, .dispatch ⟨.mqttSupervisory, .start, 1, 0, true⟩⟩, .router ⟨0, .takeMutex⟩,
   .router ⟨0, .check⟩, .machine .tick, .machine .snapshot, .machine .evaluate]

theorem refusedRun_sealed : refusedRun.length = 6 ∧
    ∀ m ∈ refusedRun, m.post.Sealed ∧ ∀ x ∈ m.ev.calls, Traj.still x.1 := by
  refine ⟨by decide +kernel, ?_⟩
  have hshut : refusedRun.all (fun m => m.post.router.authority.mode = .none) = true := by
    decide +kernel
  exact sealed_run (l := []) (isRun_plantTrace _ _) (fun _ => rfl) (.inl (.inl rfl)) rfl (.inl rfl)
    fun m hm => .inl (.inl (of_decide_eq_true (List.all_eq_true.mp hshut m hm)))

end Argus
