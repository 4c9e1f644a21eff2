import ArgusPump.MotionSafety

/-!
# A machine that is shown stopped stands still

What the machine states promise of the trajectory, without the condition on lower-layer errors
under which `FAULTED` does too: a fault that is evaluated in motion leaves the motor moving, but
every way out of `FAULTED` stops it first.

    no operation in flight, any state but FAULTED → at rest in UNLOCKED, HOLDING,
    EMERGENCY_STOPPED and RECOVERING, target 0 in DECELERATING               (stopped_is_still)
-/

namespace Argus

open Interact

/-- `FAULTED`, with nothing known of the trajectory. -/
structure FaultedInv (w : World) : Prop where
  pending : PendingInv w
  idle : w.pending = none
  faulted : w.core.machineState = .faulted
  cfg : w.traj.cfg.isSome = true
  core : LevelOk w.core

namespace StateCore

variable {core : StateCore}

/-- Out of `FAULTED` an emergency stop goes by way of `stop_immediate`. -/
theorem estop_keeps_faulted (hc : LevelOk core) (hf : core.machineState = .faulted) (ℓ : Level) :
    Keeps core.estop ℓ := by
  unfold estop
  rw [if_neg (by rw [hf]; decide)]
  have hc' : LevelOk core.latchEstop := by
    refine ⟨hc.ops, ?_⟩
    have hdest := (CoreKept.estopped core).dest hc.dest
    rwa [estopped_eq_latch (by rw [hf]; decide)] at hdest
  exact keeps_callback hc' (by simp [latchEstop]) fun v _ => keeps_rest hc'

/-- And a recovery by way of the lower layer's own. -/
theorem recover_keeps_faulted (hc : LevelOk core) (hf : core.machineState = .faulted) (ℓ : Level) :
    Keeps core.recover ℓ := by
  unfold recover
  rw [if_neg (by rw [hf]; decide)]
  have hc' : LevelOk { core with machineState := .recovering } := ⟨hc.ops, hc.dest⟩
  refine keeps_callback hc' (by simp) fun v _ => ?_
  split
  · exact keeps_rest ⟨hc.ops, hc.dest⟩
  refine keeps_callback hc' (by simp) fun e _ => ?_
  unfold recoverFinish
  split <;> exact keeps_rest ⟨hc.ops, hc.dest⟩

end StateCore

/-- Every other operation is refused in `FAULTED`. -/
theorem CoreOp.refused_faulted {op : CoreOp} {core : StateCore} (hf : core.machineState = .faulted)
    (hestop : op ≠ .estop) (hrecover : op ≠ .recover)
    (hev : ∀ a g r e, op ≠ .evaluatePeriodic a g r e) :
    ∃ err reason, op.prog core = .ret (err, core.reject reason) := by
  cases op with
  | setTarget rpmMilli forward =>
    unfold CoreOp.prog StateCore.setTarget
    dsimp only
    split <;> exact ⟨_, _, rfl⟩
  | start =>
    unfold CoreOp.prog StateCore.start
    dsimp only
    split <;> exact ⟨_, _, rfl⟩
  | stopNormal =>
    unfold CoreOp.prog StateCore.stopNormal
    dsimp only
    rw [if_pos (.inr hf)]
    exact ⟨_, _, rfl⟩
  | unlock =>
    unfold CoreOp.prog StateCore.unlock
    dsimp only
    rw [if_neg (by rw [hf]; decide), if_pos (.inr hf)]
    exact ⟨_, _, rfl⟩
  | estop => exact absurd rfl hestop
  | resetEstop =>
    unfold CoreOp.prog StateCore.resetEstop
    dsimp only
    rw [if_pos (by rw [hf]; decide)]
    exact ⟨_, _, rfl⟩
  | recover => exact absurd rfl hrecover
  | evaluatePeriodic a g ramp err => exact absurd rfl (hev a g ramp err)

/-- What is in flight, or the machine state, is counted on, except in `FAULTED`. -/
def RestInv (w : World) : Prop := WorldInv w ∨ FaultedInv w

theorem faultedInv_operation {w : World} {op : CoreOp} (hi : FaultedInv w)
    (hestop : op ≠ .estop) (hev : ∀ a g r e, op ≠ .evaluatePeriodic a g r e)
    (hpost : PendingInv ({ w with mutex := .operation }.settle (op.prog w.core))) :
    RestInv ({ w with mutex := .operation }.settle (op.prog w.core)) := by
  by_cases hrecover : op = .recover
  · subst hrecover
    obtain ⟨hcore, hlevel⟩ := settle_level (w := { w with mutex := .operation })
      (StateCore.recover_keeps_faulted hi.core hi.faulted .free) trivial
    refine .inl ⟨hpost, by simpa using hi.cfg, hcore, hlevel, fun s hs => ?_⟩
    cases settle_evaluator hs
  · obtain ⟨err, reason, hprog⟩ := CoreOp.refused_faulted hi.faulted hestop hrecover hev
    rw [hprog] at hpost ⊢
    exact .inr ⟨hpost, rfl, hi.faulted, hi.cfg, ⟨hi.core.ops, hi.core.dest⟩⟩

theorem faultedInv_evaluate {w : World} (s : TrajSnapshot) (hi : FaultedInv w)
    (hpost : PendingInv { w with
      mutex := .free
      core := w.core.evaluatePeriodic s.appliedRpmMilli s.generatedRpmMilli s.rampActive
        s.latchedError }) :
    FaultedInv { w with
      mutex := .free
      core := w.core.evaluatePeriodic s.appliedRpmMilli s.generatedRpmMilli s.rampActive
        s.latchedError } := by
  have hcore : w.core.evaluatePeriodic s.appliedRpmMilli s.generatedRpmMilli s.rampActive
      s.latchedError = w.core := by
    rcases StateCore.evaluatePeriodic_cases w.core s.appliedRpmMilli s.generatedRpmMilli
      s.rampActive s.latchedError with h | ⟨-, hf, -, -⟩ | ⟨hm, -⟩ | ⟨hm, -, -⟩
    · exact h
    · exact absurd hi.faulted hf
    · rw [hi.faulted] at hm
      cases hm
    · rw [hi.faulted] at hm
      cases hm
  rw [hcore] at hpost ⊢
  exact ⟨hpost, hi.idle, hi.faulted, hi.cfg, hi.core⟩

theorem faultedInv_step {m : MotionMove} (hi : FaultedInv m.pre)
    (hs : MotionStep m.pre m.ev m.post) : RestInv m.post := by
  have hpost := (pendingInv_step hi.pending hs).1
  obtain ⟨w, ev, w'⟩ := m
  dsimp only at hi hs hpost ⊢
  cases hs with
  | operation op hpend hmutex hop hev => exact faultedInv_operation hi hop hev hpost
  | estop hpend =>
    obtain ⟨hcore, hlevel⟩ := settle_level (StateCore.estop_keeps_faulted hi.core hi.faulted .free)
      (w := w) trivial
    refine .inl ⟨hpost, by simpa using hi.cfg, hcore, hlevel, fun s _ hd => ?_⟩
    rw [estop_settle] at hd
    cases hd
  | callback hpend hd =>
    rw [hi.idle] at hpend
    cases hpend
  | recoverDelay hpend hd =>
    rw [hi.idle] at hpend
    cases hpend
  | snapshot hmutex hd =>
    obtain ⟨htraj, -⟩ := (hd.of_wpT (Traj.getSnapshot_wp w.traj)).1
    dsimp only at htraj
    subst htraj
    exact .inr ⟨hpost, hi.idle, hi.faulted, hi.cfg, hi.core⟩
  | @evaluate s hpend hmutex => exact .inr (faultedInv_evaluate s hi hpost)
  | tick hd =>
    have hcfg := (hd.of_wpT (Traj.tick_frame w.traj)).1.1
    exact .inr ⟨hpost, hi.idle, hi.faulted, hcfg ▸ hi.cfg, hi.core⟩
  | alarm ha => exact .inr ⟨hpost, hi.idle, hi.faulted, hi.cfg, hi.core⟩

theorem restInv_step {m : MotionMove} (hi : RestInv m.pre) (hs : MotionStep m.pre m.ev m.post) :
    RestInv m.post := by
  rcases hi with hi | hi
  swap
  · exact faultedInv_step hi hs
  by_cases hk : FaultsAtRest m
  · exact .inl (worldInv_step hi hs hk)
  · -- a new lower-layer error, evaluated in motion
    unfold FaultsAtRest at hk
    have hpost := (pendingInv_step hi.pending hs).1
    obtain ⟨w, ev, w'⟩ := m
    dsimp only at hi hs hk hpost ⊢
    simp only [Classical.not_imp] at hk
    obtain ⟨htask, herr, hf, hr, -⟩ := hk
    obtain ⟨htraj, hfaulted⟩ := evaluate_faults hs htask herr hf hr
    cases hs with
    | evaluate hpend hmutex =>
      refine .inr ⟨hpost, hpend, hfaulted, hi.cfg, ?_⟩
      rcases StateCore.evaluatePeriodic_cases w.core _ _ _ _ with h | ⟨-, -, -, h⟩ | ⟨-, h⟩ | ⟨-, -, h⟩
      all_goals
        dsimp only
        rw [h]
        exact ⟨hi.core.ops, hi.core.dest⟩
    | _ => cases htask

theorem RestInv.holds {w : World} (hi : RestInv w) (hpend : w.pending = none)
    (hf : w.core.machineState ≠ .faulted) : w.core.machineState.level.Holds w.traj := by
  rcases hi with hi | hi
  · have hl := hi.level
    unfold LevelInv at hl
    rw [hpend] at hl
    exact hl
  · exact absurd hi.faulted hf

/-- The states in which the motor is said to stand. -/
def MachineState.stopped (s : MachineState) : Prop :=
  s = .booting ∨ s = .unlocked ∨ s = .holding ∨ s = .emergencyStopped ∨ s = .recovering

theorem level_of_stopped {s : MachineState} (h : s.stopped) : s.level = .rest := by
  rcases h with rfl | rfl | rfl | rfl | rfl <;> rfl

/-- **A machine that is shown stopped stands still.**  In every run, with no operation in flight,
target and applied rate are 0 in the stopped states and no tick moves the motor; in
`DECELERATING` the target is 0. -/
theorem stopped_is_still (cfg : ArgusConfig) (gen : StepGen) (ms : List MotionMove)
    (h : IsRun MotionStep (World.init cfg gen) ms) :
    ∀ m ∈ ms, m.pre.pending = none →
      (m.pre.core.machineState.stopped → m.pre.traj.AtRest ∧
        (m.ev.task = .tick → ∀ x ∈ m.ev.calls, Traj.still x.1)) ∧
      (m.pre.core.machineState = .decelerating → m.pre.traj.targetRpmMilli = 0) := by
  have hinv := (h.inv (.inl (worldInv_init cfg gen)) fun _ hi hs => restInv_step hi hs).1
  intro m hm hpend
  have hpre := (hinv m hm).1
  refine ⟨fun hstopped => ?_, fun hd => ?_⟩
  · have hholds := hpre.holds hpend fun hf => by
      rw [hf] at hstopped
      rcases hstopped with h | h | h | h | h <;> cases h
    rw [level_of_stopped hstopped] at hholds
    exact ⟨hholds, fun htask => tick_still (h.step_of_mem m hm) htask hholds⟩
  · have hholds := hpre.holds hpend fun hf => by
      rw [hf] at hd
      cases hd
    rw [hd] at hholds
    exact hholds

/-- A fault is evaluated while the rate ramps up, the motor goes on, and is recovered. -/
def recoveredRun : List MotionMove := (World.init argusConfig (.boot argusConfig)).simulate
  [(.operation (.setTarget 1000 true), driversOk), (.operation .start, driversOk),
   (.callback, driversOk), (.callback, driversOk), (.tick, timerFails), (.snapshot, driversOk),
   (.evaluate, driversOk), (.tick, driversOk), (.operation .recover, driversOk), (.callback, driversOk),
   (.recoverDelay, driversOk), (.callback, driversOk), (.tick, driversOk)]

theorem recoveredRun_still :
    ∃ m ∈ recoveredRun, m.ev.task = .tick ∧ m.pre.core.machineState = .unlocked ∧ m.pre.traj.AtRest ∧
      ∀ x ∈ m.ev.calls, Traj.still x.1 := by
  have hlast : ∃ m ∈ recoveredRun, m.ev.task = .tick ∧ m.pre.core.machineState = .unlocked ∧
      m.pre.pending.isNone = true ∧ 0 < recoveredRun.countP fun n =>
        n.ev.task = .tick ∧ n.pre.core.machineState = .faulted ∧ n.post.traj.appliedRpmMilli ≠ 0 := by
    decide +kernel
  obtain ⟨m, hm, htask, hstate, hpend, -⟩ := hlast
  obtain ⟨hrest, htick⟩ := (stopped_is_still argusConfig (.boot argusConfig) _ (World.simulate_isRun _ _)
    m hm (Option.isNone_iff_eq_none.mp hpend)).1 (.inr (.inl hstate))
  exact ⟨m, hm, htask, hstate, hrest, htick htask⟩

end Argus
