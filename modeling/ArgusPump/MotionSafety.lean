import ArgusPump.Motion

/-!
# Emergency stops and faults inhibit motion

    estop's stop_immediate, then the latch stands → at rest, nothing moves the motor
                                                          (estop_inhibits_motion)
    FAULTED is entered at rest and keeps the motor still ⇔ no new lower-layer error is
    evaluated while the trajectory has a target or a rate (faulted_inhibits_iff)

The second is carried by an abstraction of the trajectory to three levels (`Level`), which
the callbacks (`Level.Holds.callback`) and the operations (`CoreOp.keeps`) follow.
-/

namespace Argus

open Interact

/-! ## Emergency stops inhibit motion -/

/-- The callback that is next. -/
def World.nextCallback (w : World) : Option Callback :=
  match w.pending with
  | some (.call q _) => some q.callback
  | _ => none

/-- At rest, and no callback about to move the motor. -/
def Inhibited (w : World) : Prop :=
  w.traj.AtRest ∧ ∀ c, w.nextCallback = some c → c.producesMotion = false

/-- The step executes the `stop_immediate` of an `estop`. -/
def StopsImmediately (m : MotionMove) : Prop :=
  m.ev.task = .callback ∧ m.pre.nextCallback = some .stopImmediate

instance (m : MotionMove) : Decidable (StopsImmediately m) := inferInstanceAs (Decidable (_ ∧ _))

theorem World.nextCallback_eq {w : World} {c : Callback} (h : w.nextCallback = some c) :
    ∃ q k, w.pending = some (.call q k) ∧ q.callback = c := by
  unfold nextCallback at h
  split at h
  next q k hpend => exact ⟨q, k, hpend, by simpa using h⟩
  · cases h

theorem pending_still {w : World} {q : CoreCall} {k : CoreAnswer → CoreProg} (hi : PendingInv w)
    (hl : w.core.estopLatched = true) (h : w.pending = some (.call q k)) :
    q.callback.producesMotion = false := by
  simp only [PendingInv, h] at hi
  obtain ⟨hcore, hp | ⟨-, hp⟩⟩ := hi
  · rw [hp.callback]
    rfl
  · exact hp.1.inhibited (hcore ▸ hl)

theorem stopImmediately_rest {w w' : World} {ev : MotionEvent} {q : CoreCall}
    {k : CoreAnswer → CoreProg} (hs : MotionStep w ev w') (htask : ev.task = .callback)
    (hq : w.pending = some (.call q k)) (hstop : q.callback = .stopImmediate) :
    w'.traj.AtRest := by
  cases hs with
  | @callback q' k' calls v traj gen hpend hd =>
    obtain ⟨rfl, rfl⟩ : q = q' ∧ k = k' := by simpa [hq] using hpend
    have hrest := (callback_effect hd).stops (.inr (.inl hstop))
    split
    · exact hrest
    · simpa using hrest
  | _ => simp at htask

/-- Under the latch, rest is kept and nothing moves the motor. -/
theorem inhibited_step {w w' : World} {ev : MotionEvent} (hi : PendingInv w)
    (hl : w.core.estopLatched = true) (hr : w.traj.AtRest) (hs : MotionStep w ev w') :
    w'.traj.AtRest ∧ ∀ x ∈ ev.calls, Traj.still x.1 := by
  cases hs with
  | operation op hpend hmutex hop hev => simpa using hr
  | estop hpend => simpa using hr
  | @callback q k calls v traj gen hpend hd =>
    have hq := pending_still hi hl hpend
    have hzero : ∀ rpm fwd, q.callback = .setTargetRate rpm fwd → rpm = 0 := by
      intro rpm fwd hc
      simpa [hc, Callback.producesMotion] using hq
    have hrest := (callback_effect hd).rest hzero hr
    refine ⟨?_, callback_still hd hq⟩
    split
    · exact hrest
    · simpa using hrest
  | recoverDelay hpend hd =>
    obtain ⟨htraj, hcalls⟩ := hd.of_wpT (Traj.recoverVerify_wp w.traj)
    dsimp only at htraj
    subst htraj
    exact ⟨by simpa using hr, hcalls⟩
  | snapshot hmutex hd =>
    obtain ⟨⟨htraj, -⟩, hcalls⟩ := hd.of_wpT (Traj.getSnapshot_wp w.traj)
    dsimp only at htraj
    subst htraj
    exact ⟨hr, hcalls⟩
  | evaluate hpend hmutex => exact ⟨hr, by simp⟩
  | tick hd => exact hd.of_wpT (Traj.tick_rest w.traj hr)
  | alarm ha => exact ⟨hr, by simp⟩

theorem inhibited_of_inv {w : World} (hi : PendingInv w) (hl : w.core.estopLatched = true)
    (hr : w.traj.AtRest) : Inhibited w :=
  ⟨hr, fun c hc => by
    obtain ⟨q, k, hq, rfl⟩ := World.nextCallback_eq hc
    exact pending_still hi hl hq⟩

/-- The core is latched once `stop_immediate` has run. -/
theorem stopImmediately_latched {w w' : World} {ev : MotionEvent} {q : CoreCall}
    {k : CoreAnswer → CoreProg} (hi : PendingInv w) (hs : MotionStep w ev w')
    (htask : ev.task = .callback) (hq : w.pending = some (.call q k))
    (hstop : q.callback = .stopImmediate) : w'.core.estopLatched = true := by
  simp only [PendingInv, hq] at hi
  have hp : EstopPending q k := hi.2.resolve_right fun hp => hp.2.1.notStop hstop
  cases hs with
  | @callback q' k' calls v traj gen hpend hd =>
    obtain ⟨rfl, rfl⟩ : q = q' ∧ k = k' := by simpa [hq] using hpend
    simp [hp.callback, hp.rest, World.settle, hp.latched]
  | _ => simp at htask

theorem pendingInv_init (cfg : ArgusConfig) (gen : StepGen) : PendingInv (World.init cfg gen) := by
  simp [PendingInv, World.init]

/-- **Emergency stops inhibit motion.**  From the `stop_immediate` of an `estop` until a
`reset_estop` clears the latch, the trajectory is at rest, no callback moves the motor, and no
function of the step generator that starts it, sets a rate or enables the driver is called. -/
theorem estop_inhibits_motion (cfg : ArgusConfig) (gen : StepGen) (l : List MotionMove)
    (m : MotionMove) (mid r : List MotionMove)
    (h : IsRun MotionStep (World.init cfg gen) (l ++ m :: (mid ++ r)))
    (hm : StopsImmediately m)
    (hreset : ∀ n ∈ mid, n.ev.task = .operation .resetEstop → n.post.core.estopLatched = true) :
    Inhibited m.post ∧
      ∀ n ∈ mid, Inhibited n.post ∧ ∀ x ∈ n.ev.calls, Traj.still x.1 := by
  obtain ⟨hl, hpre, hs, hr⟩ := (isRun_append _ _ _).mp h
  obtain ⟨hmid, -⟩ := (isRun_append _ _ _).mp hr
  obtain ⟨htask, hnext⟩ := hm
  obtain ⟨q, k, hq, hstop⟩ := World.nextCallback_eq hnext
  have hi : PendingInv m.pre := by
    rw [hpre]
    exact (hl.inv (pendingInv_init cfg gen) fun _ hi hs => (pendingInv_step hi hs).1).2
  have hi' := (pendingInv_step hi hs).1
  have hrest := stopImmediately_rest hs htask hq hstop
  have hlatched := stopImmediately_latched hi hs htask hq hstop
  -- the invariant that the latch carries along `mid`
  have hinv := (hmid.inv_of (I := fun w => PendingInv w ∧ w.core.estopLatched = true ∧ w.traj.AtRest)
    ⟨hi', hlatched, hrest⟩ hreset fun n hn hs hk =>
      ⟨(pendingInv_step hn.1 hs).1, ?_, (inhibited_step hn.1 hn.2.1 hn.2.2 hs).1⟩).1
  · refine ⟨inhibited_of_inv hi' hlatched hrest, fun n hn => ?_⟩
    obtain ⟨⟨h1, h2, h3⟩, h4, h5, h6⟩ := hinv n hn
    exact ⟨inhibited_of_inv h4 h5 h6, (inhibited_step h1 h2 h3 (hmid.step_of_mem n hn)).2⟩
  · by_cases hreset : n.ev.task = .operation .resetEstop
    · exact hk hreset
    · exact (pendingInv_step hn.1 hs).2 hn.2.1 hreset

/-- An emergency stop while the rate ramps up, with a tick before and after its callback, and a
`recover` under the latch. -/
def stoppedRun : List MotionMove := (World.init argusConfig (.boot argusConfig)).simulate
  [(.operation (.setTarget 1000 true), driversOk), (.operation .start, driversOk),
   (.callback, driversOk), (.callback, driversOk), (.tick, driversOk),
   (.operation .estop, driversOk), (.tick, driversOk), (.callback, driversOk),
   (.tick, driversOk), (.operation .recover, driversOk), (.callback, driversOk),
   (.recoverDelay, driversOk), (.tick, driversOk)]

theorem stoppedRun_length : 7 < stoppedRun.length := by decide +kernel

theorem stoppedRun_inhibited :
    Inhibited (stoppedRun.get ⟨7, stoppedRun_length⟩).post ∧
      ∀ n ∈ stoppedRun.drop 8, Inhibited n.post ∧ ∀ x ∈ n.ev.calls, Traj.still x.1 := by
  have hsplit : stoppedRun = stoppedRun.take 7 ++
      stoppedRun.get ⟨7, stoppedRun_length⟩ :: (stoppedRun.drop 8 ++ []) := by
    rw [List.append_nil, List.get_eq_getElem, ← List.drop_eq_getElem_cons stoppedRun_length,
      List.take_append_drop]
  have hrun : IsRun MotionStep (World.init argusConfig (.boot argusConfig)) (stoppedRun.take 7 ++
      stoppedRun.get ⟨7, stoppedRun_length⟩ :: (stoppedRun.drop 8 ++ [])) :=
    hsplit ▸ World.simulate_isRun _ _
  have hm : StopsImmediately (stoppedRun.get ⟨7, stoppedRun_length⟩) := by decide +kernel
  exact estop_inhibits_motion argusConfig _ _ _ _ [] hrun hm (by decide +kernel)

/-! ## Faults -/

/-- What is known of the trajectory: at rest, with target 0, or nothing. -/
inductive Level
  | rest | braked | free
deriving DecidableEq, Repr

def Level.Holds : Level → Traj → Prop
  | .rest, traj => traj.AtRest
  | .braked, traj => traj.targetRpmMilli = 0
  | .free, _ => True

/-- What a machine state promises of the trajectory. -/
def MachineState.level : MachineState → Level
  | .starting | .running => .free
  | .decelerating => .braked
  | _ => .rest

/-- What a callback leaves of a level. -/
def Callback.level : Callback → Level → Level
  | .disableDriver, _ | .stopImmediate, _ | .recover, _ => .rest
  | .stopNormal, .free => .braked
  | .setTargetRate _ _, _ => .free
  | _, ℓ => ℓ

/-- The order of levels: `ℓ` tells at least as much as `ℓ'`. -/
def Level.covers : Level → Level → Bool
  | .rest, _ | _, .free | .braked, .braked => true
  | _, _ => false

theorem Level.Holds.mono {ℓ ℓ' : Level} {traj : Traj} (h : ℓ.Holds traj)
    (hc : ℓ.covers ℓ' = true) : ℓ'.Holds traj := by
  cases ℓ <;> cases ℓ' <;> first | exact h | exact h.1 | trivial

theorem Level.Holds.tick {ℓ : Level} {w : World} {calls : StepTranscript} {traj : Traj}
    {gen : StepGen} (h : ℓ.Holds w.traj) (hd : Traj.Does Traj.tick w calls () traj gen) :
    ℓ.Holds traj := by
  cases ℓ with
  | rest => exact (hd.of_wpT (Traj.tick_rest w.traj h)).1
  | braked => exact (hd.of_wpT (Traj.tick_frame w.traj)).1.2.trans h
  | free => trivial

/-- **The levels follow the callbacks.** -/
theorem Level.Holds.callback {ℓ : Level} {c : Callback} {traj traj' : Traj} {v : UInt32}
    (h : ℓ.Holds traj) (hcfg : traj.cfg.isSome = true) (he : CallbackEffect c traj v traj') :
    (c.level ℓ).Holds traj' := by
  cases c with
  | setTargetRate rpm fwd => trivial
  | disableDriver => exact he.stops (.inl rfl)
  | stopImmediate => exact he.stops (.inr (.inl rfl))
  | recover => exact he.stops (.inr (.inr rfl))
  | stopNormal =>
    cases ℓ with
    | rest => exact he.rest (by simp) h
    | braked => exact he.target (by simp) h
    | free => exact (he.slows rfl hcfg).2
  | enableDriver | getError =>
    cases ℓ with
    | rest => exact he.rest (by simp) h
    | braked => exact he.target (by simp) h
    | free => trivial

/-- A callback seen from the levels: the core is left alone, and only `set_target_rate` and
`stop_normal` are known to answer `ESP_OK`. -/
def levelHandler (q : CoreCall) (ℓ : Level) (r : CoreAnswer) (ℓ' : Level) : Prop :=
  r.core = q.core ∧ ℓ' = q.callback.level ℓ ∧
    ((∃ rpm fwd, q.callback = .setTargetRate rpm fwd) ∨ q.callback = .stopNormal →
      r.result = espOk)

/-- The core that an operation asks with or returns. -/
structure LevelOk (core : StateCore) : Prop where
  ops : core.ops = productionOps
  dest : ResetTarget core

/-- What is left of an operation, from level `ℓ`: it asks outside `FAULTED` and returns with what
its machine state promises. -/
def Keeps (p : CoreProg) (ℓ : Level) : Prop :=
  p.wpS levelHandler (fun q _ => q.core.machineState ≠ .faulted ∧ LevelOk q.core)
    (fun a ℓ => ℓ.covers a.2.machineState.level = true ∧ LevelOk a.2) ℓ

theorem keeps_callback {core : StateCore} {c : Callback} {k : UInt32 → StateCore → CoreProg}
    {ℓ : Level} (hc : LevelOk core) (hf : core.machineState ≠ .faulted)
    (hk : ∀ v, ((∃ rpm fwd, c = .setTargetRate rpm fwd) ∨ c = .stopNormal → v = espOk) →
      Keeps (k v core) (c.level ℓ)) :
    Keeps (core.callback c k) ℓ := by
  unfold StateCore.callback
  have hhas : core.ops.has c = true := by
    rw [hc.ops]
    cases c <;> rfl
  rw [if_pos hhas]
  refine ⟨⟨hf, hc⟩, fun r ℓ' hr => ?_⟩
  obtain ⟨hcore, rfl, hv⟩ := hr
  dsimp only at hcore
  have hkeeps := hk r.result hv
  unfold Keeps at hkeeps
  simpa only [hcore] using hkeeps

/-- Returning at once in the state the operation was called in. -/
theorem keeps_same {core : StateCore} (hc : LevelOk core) (e : EspErr) (reason : String) :
    Keeps (.ret (e, core.reject reason)) core.machineState.level := by
  refine ⟨?_, hc.ops, hc.dest⟩
  show core.machineState.level.covers core.machineState.level = true
  cases core.machineState.level <;> rfl

theorem keeps_ret {core : StateCore} {ℓ : Level} {e : EspErr} (hc : LevelOk core)
    (h : ℓ.covers core.machineState.level = true) : Keeps (.ret (e, core)) ℓ := ⟨h, hc⟩

theorem keeps_rest {core : StateCore} {e : EspErr} (hc : LevelOk core) :
    Keeps (.ret (e, core)) .rest := keeps_ret hc rfl

namespace StateCore

variable {core : StateCore}

theorem setTarget_keeps (rpmMilli : Int) (forward : Bool) (hc : LevelOk core) :
    Keeps (core.setTarget rpmMilli forward) core.machineState.level := by
  unfold setTarget
  split; · exact keeps_same hc _ _
  split; · exact keeps_same hc _ _
  next hf =>
  split; · exact keeps_same hc _ _
  split; · exact keeps_same hc _ _
  split; · exact keeps_same hc _ _
  dsimp only
  split
  next hs =>
    refine keeps_callback ⟨hc.ops, hc.dest⟩ hf fun v hv => ?_
    rw [if_neg (by simp [hv (.inl ⟨_, _, rfl⟩)])]
    refine keeps_ret ⟨hc.ops, hc.dest⟩ ?_
    rcases hs with hs | hs <;> simp [hs, MachineState.level, Callback.level, Level.covers]
  · refine keeps_ret ⟨hc.ops, hc.dest⟩ ?_
    show core.machineState.level.covers core.machineState.level = true
    cases core.machineState.level <;> rfl

theorem start_keeps (hc : LevelOk core) : Keeps core.start core.machineState.level := by
  unfold start
  split; · exact keeps_same hc _ _
  next hes =>
  split; · exact keeps_same hc _ _
  split; · exact keeps_same hc _ _
  split; · exact keeps_same hc _ core.lastRejectionReason
  split; · exact keeps_same hc _ _
  next hf hd hs _ =>
  -- the states left promise rest
  have hrest : core.machineState.level = .rest := by
    cases hm : core.machineState <;> simp_all [MachineState.level]
  have hc' : LevelOk { core with machineState := .starting } := ⟨hc.ops, hc.dest⟩
  rw [hrest]
  refine keeps_callback hc' (by simp) fun v _ => ?_
  split
  · exact keeps_rest ⟨hc.ops, hc.dest⟩
  split
  · refine keeps_callback hc' (by simp) fun e he => ?_
    obtain rfl := he (.inl ⟨_, _, rfl⟩)
    unfold startFinish
    split
    · exact keeps_ret ⟨hc.ops, hc.dest⟩ rfl
    · exact keeps_ret hc' rfl
  · unfold startFinish
    split <;> exact keeps_rest ⟨hc.ops, hc.dest⟩

theorem stopNormal_keeps (hc : LevelOk core) : Keeps core.stopNormal core.machineState.level := by
  unfold stopNormal
  split; · exact keeps_same hc _ _
  split; · exact keeps_same hc _ core.lastRejectionReason
  refine keeps_callback ⟨hc.ops, hc.dest⟩ (by simp) fun v hv => ?_
  rw [if_neg (by simp [hv (.inr rfl)])]
  refine keeps_ret ⟨hc.ops, hc.dest⟩ ?_
  cases core.machineState.level <;> rfl

theorem unlock_keeps (hc : LevelOk core) : Keeps core.unlock core.machineState.level := by
  unfold unlock
  split; · exact keeps_same hc _ _
  split; · exact keeps_same hc _ _
  split; · exact keeps_same hc _ core.lastRejectionReason
  exact keeps_callback ⟨hc.ops, hc.dest⟩ (by simp) fun v _ => keeps_rest ⟨hc.ops, hc.dest⟩

theorem estop_keeps (hc : LevelOk core) : Keeps core.estop core.machineState.level := by
  unfold estop
  split; · exact keeps_same hc _ core.lastRejectionReason
  next hs =>
  have hc' : LevelOk core.latchEstop := by
    refine ⟨hc.ops, ?_⟩
    have := (CoreKept.estopped core).dest hc.dest
    rwa [estopped_eq_latch hs] at this
  exact keeps_callback hc' (by simp [latchEstop]) fun v _ => keeps_rest hc'

theorem resetEstop_keeps (hc : LevelOk core) : Keeps core.resetEstop core.machineState.level := by
  unfold resetEstop
  split; · exact keeps_same hc _ _
  next hs =>
  rw [not_not] at hs
  rw [hs]
  exact keeps_rest ⟨hc.ops, hc.dest⟩

theorem recover_keeps (hc : LevelOk core) : Keeps core.recover core.machineState.level := by
  unfold recover
  split; · exact keeps_same hc _ _
  have hc' : LevelOk { core with machineState := .recovering } := ⟨hc.ops, hc.dest⟩
  refine keeps_callback hc' (by simp) fun v _ => ?_
  split
  · exact keeps_rest ⟨hc.ops, hc.dest⟩
  refine keeps_callback hc' (by simp) fun e _ => ?_
  unfold recoverFinish
  split <;> exact keeps_rest ⟨hc.ops, hc.dest⟩

end StateCore

/-- **One operation.**  From what the machine state promises to what it promises again. -/
theorem CoreOp.keeps (op : CoreOp) {core : StateCore} (hc : LevelOk core)
    (hev : ∀ a g r e, op ≠ .evaluatePeriodic a g r e) :
    Keeps (op.prog core) core.machineState.level := by
  cases op with
  | setTarget rpmMilli forward => exact StateCore.setTarget_keeps rpmMilli forward hc
  | start => exact StateCore.start_keeps hc
  | stopNormal => exact StateCore.stopNormal_keeps hc
  | unlock => exact StateCore.unlock_keeps hc
  | estop => exact StateCore.estop_keeps hc
  | resetEstop => exact StateCore.resetEstop_keeps hc
  | recover => exact StateCore.recover_keeps hc
  | evaluatePeriodic a g ramp err => exact absurd rfl (hev a g ramp err)

/-- The trajectory has the level that the core, or what is left of an operation, counts on. -/
def LevelInv (w : World) : Prop :=
  match w.pending with
  | none => w.core.machineState.level.Holds w.traj
  | some (.call q k) => ∃ ℓ : Level, ℓ.Holds w.traj ∧ Keeps (.ask q k) ℓ
  | some (.delay q k) => w.core.machineState ≠ .faulted ∧ w.traj.AtRest ∧
      ∀ v, Keeps (k ⟨v, q.core⟩) .rest

structure WorldInv (w : World) : Prop where
  pending : PendingInv w
  cfg : w.traj.cfg.isSome = true
  core : LevelOk w.core
  level : LevelInv w
  /-- The evaluator's snapshot is not outdated where it matters. -/
  snapshot : ∀ s, w.mutex = .evaluator s → w.core.machineState = .decelerating →
    s.appliedRpmMilli = 0 → w.traj.AtRest

/-- The lower-layer error in the evaluator's snapshot. -/
def World.snapshotError (w : World) : UInt32 :=
  match w.mutex with
  | .evaluator s => s.latchedError
  | _ => 0

/-- The step finds the trajectory at rest if it evaluates a new lower-layer error. -/
def FaultsAtRest (m : MotionMove) : Prop :=
  m.ev.task = .evaluate → m.pre.snapshotError ≠ 0 → m.pre.core.machineState ≠ .faulted →
    m.pre.core.machineState ≠ .recovering → m.pre.traj.AtRest

instance (m : MotionMove) : Decidable (FaultsAtRest m) :=
  inferInstanceAs (Decidable (_ → _ → _ → _ → _))

theorem WorldInv.faulted_rest {w : World} (hi : WorldInv w)
    (hf : w.core.machineState = .faulted) : w.traj.AtRest := by
  have hl := hi.level
  have hp := hi.pending
  unfold LevelInv at hl
  unfold PendingInv at hp
  cases hpend : w.pending with
  | none =>
    simp only [hpend, hf] at hl
    exact hl
  | some p =>
    cases p with
    | call q k =>
      simp only [hpend] at hl hp
      obtain ⟨ℓ, -, hk⟩ := hl
      exact absurd (hp.1 ▸ hf) hk.1.1
    | delay q k =>
      simp only [hpend] at hl
      exact hl.2.1

/-- An operation goes on to a program that keeps the levels. -/
theorem settle_level {w : World} {p : CoreProg} {ℓ : Level} (hp : Keeps p ℓ)
    (hl : ℓ.Holds w.traj) : LevelOk (w.settle p).core ∧ LevelInv (w.settle p) := by
  cases p with
  | ret a => exact ⟨hp.2, hl.mono hp.1⟩
  | ask q k => exact ⟨hp.1.2, ⟨ℓ, hl, hp⟩⟩

theorem worldInv_init (cfg : ArgusConfig) (gen : StepGen) : WorldInv (World.init cfg gen) where
  pending := pendingInv_init cfg gen
  cfg := rfl
  core := ⟨rfl, .inr rfl⟩
  level := show Traj.AtRest _ from ⟨rfl, rfl⟩
  snapshot := by simp [World.init]

theorem settle_evaluator {w : World} {p : CoreProg} {s : TrajSnapshot}
    (h : (w.settle p).mutex = .evaluator s) : w.mutex = .evaluator s := by
  cases p with
  | ret a =>
    simp only [World.settle] at h
    split at h
    · cases h
    · exact h
  | ask q k => exact h

theorem estop_settle (w : World) :
    (w.settle w.core.estop).core.machineState = .emergencyStopped := by
  rcases estop_pending w.core with ⟨e, he⟩ | ⟨q, k, he, hp⟩
  · simp [he, World.settle]
  · simp [he, World.settle, hp.estopped]

/-- Without `s_command_mutex`, what is in flight is an E-stop. -/
theorem PendingInv.estopped {w : World} (hi : PendingInv w) (hm : w.mutex ≠ .operation)
    (hpend : w.pending ≠ none) :
    ∃ q k, w.pending = some (.call q k) ∧ w.core = q.core ∧ EstopPending q k := by
  unfold PendingInv at hi
  cases hp : w.pending with
  | none => exact absurd hp hpend
  | some p =>
    cases p with
    | call q k =>
      simp only [hp] at hi
      exact ⟨q, k, rfl, hi.1, hi.2.resolve_right fun h => hm h.1⟩
    | delay q k =>
      simp only [hp] at hi
      exact absurd hi.2.1 hm

theorem worldInv_operation {w : World} {op : CoreOp} (hi : WorldInv w) (hpend : w.pending = none)
    (hev : ∀ a g r e, op ≠ .evaluatePeriodic a g r e)
    (hpost : PendingInv ({ w with mutex := .operation }.settle (op.prog w.core))) :
    WorldInv ({ w with mutex := .operation }.settle (op.prog w.core)) := by
  have hl : w.core.machineState.level.Holds w.traj := by simpa [LevelInv, hpend] using hi.level
  obtain ⟨h1, h2⟩ := settle_level (w := { w with mutex := .operation }) (op.keeps hi.core hev) hl
  refine ⟨hpost, by simpa using hi.cfg, h1, h2, fun s hs => ?_⟩
  cases settle_evaluator hs

theorem worldInv_estop {w : World} (hi : WorldInv w) (hpend : w.pending = none)
    (hpost : PendingInv (w.settle w.core.estop)) : WorldInv (w.settle w.core.estop) := by
  have hl : w.core.machineState.level.Holds w.traj := by simpa [LevelInv, hpend] using hi.level
  obtain ⟨h1, h2⟩ := settle_level (StateCore.estop_keeps hi.core) hl
  refine ⟨hpost, by simpa using hi.cfg, h1, h2, fun s _ hd => ?_⟩
  rw [estop_settle] at hd
  cases hd

theorem worldInv_callback {w : World} {q : CoreCall} {k : CoreAnswer → CoreProg}
    {v : UInt32} {traj : Traj} {gen : StepGen} (hi : WorldInv w)
    (hpend : w.pending = some (.call q k)) (he : CallbackEffect q.callback w.traj v traj)
    (hpost : PendingInv (if q.callback = .recover ∧ v = espOk then
        { w with traj := traj, gen := gen, pending := some (.delay q k) }
      else { w with traj := traj, gen := gen }.settle (k ⟨v, q.core⟩))) :
    WorldInv (if q.callback = .recover ∧ v = espOk then
        { w with traj := traj, gen := gen, pending := some (.delay q k) }
      else { w with traj := traj, gen := gen }.settle (k ⟨v, q.core⟩)) := by
  have hcfg : traj.cfg.isSome = true := he.cfg ▸ hi.cfg
  obtain ⟨ℓ, hl, hk⟩ : ∃ ℓ : Level, ℓ.Holds w.traj ∧ Keeps (.ask q k) ℓ := by
    simpa [LevelInv, hpend] using hi.level
  have hcore : w.core = q.core := by
    have := hi.pending
    simp only [PendingInv, hpend] at this
    exact this.1
  have hans : ∀ u, ((∃ rpm fwd, q.callback = .setTargetRate rpm fwd) ∨ q.callback = .stopNormal →
      u = espOk) → Keeps (k ⟨u, q.core⟩) (q.callback.level ℓ) := fun u hu =>
    hk.2 ⟨u, q.core⟩ _ ⟨rfl, rfl, hu⟩
  split at hpost
  next hr =>
    rw [if_pos hr]
    refine ⟨hpost, hcfg, hi.core, ⟨hcore ▸ hk.1.1, he.stops (.inr (.inr hr.1)), fun u => ?_⟩, ?_⟩
    · have := hans u (by simp [hr.1])
      rwa [hr.1] at this
    · exact fun _ _ _ _ => he.stops (.inr (.inr hr.1))
  next hr =>
    rw [if_neg hr]
    have hv : (∃ rpm fwd, q.callback = .setTargetRate rpm fwd) ∨ q.callback = .stopNormal →
        v = espOk := by
      rintro (hc | hc)
      · exact he.accepts hc hi.cfg
      · exact (he.slows hc hi.cfg).1
    obtain ⟨h1, h2⟩ := settle_level (w := { w with traj := traj, gen := gen }) (hans v hv)
      (hl.callback hi.cfg he)
    refine ⟨hpost, by simpa using hcfg, h1, h2, fun s hs hd => ?_⟩
    have hm : w.mutex = .evaluator s :=
      settle_evaluator (w := { w with traj := traj, gen := gen }) hs
    obtain ⟨q', k', hp', -, hes⟩ := hi.pending.estopped (by simp [hm]) (by simp [hpend])
    obtain ⟨rfl, rfl⟩ : q = q' ∧ k = k' := by simpa [hpend] using hp'
    simp [hes.rest, World.settle, hes.estopped] at hd

theorem worldInv_recoverDelay {w : World} {q : CoreCall} {k : CoreAnswer → CoreProg}
    {v : UInt32} {gen : StepGen} (hi : WorldInv w) (hpend : w.pending = some (.delay q k))
    (hpost : PendingInv ({ w with gen := gen }.settle (k ⟨v, q.core⟩))) :
    WorldInv ({ w with gen := gen }.settle (k ⟨v, q.core⟩)) := by
  obtain ⟨-, hrest, hk⟩ : w.core.machineState ≠ .faulted ∧ w.traj.AtRest ∧
      ∀ v, Keeps (k ⟨v, q.core⟩) .rest := by simpa [LevelInv, hpend] using hi.level
  obtain ⟨h1, h2⟩ := settle_level (w := { w with gen := gen }) (hk v) hrest
  exact ⟨hpost, by simpa using hi.cfg, h1, h2, fun s _ _ _ => by simpa using hrest⟩

theorem worldInv_snapshot {w : World} {s : TrajSnapshot} {gen : StepGen} (hi : WorldInv w)
    (hmutex : w.mutex = .free) (hs : s.appliedRpmMilli = w.traj.appliedRpmMilli)
    (hpost : PendingInv { w with mutex := .evaluator s, gen := gen }) :
    WorldInv { w with mutex := .evaluator s, gen := gen } := by
  refine ⟨hpost, hi.cfg, hi.core, hi.level, fun s' hs' hd h0 => ?_⟩
  obtain rfl : s = s' := by simpa using hs'
  cases hpend : w.pending with
  | none =>
    have hl := hi.level
    simp only [LevelInv, hpend] at hl
    dsimp only at hd
    rw [hd] at hl
    exact ⟨hl, hs.symm.trans h0⟩
  | some p =>
    obtain ⟨q, k, -, hcore, hes⟩ := hi.pending.estopped (by simp [hmutex]) (by simp [hpend])
    dsimp only at hd
    rw [hcore, hes.estopped] at hd
    cases hd

theorem worldInv_evaluate {w : World} {s : TrajSnapshot} (hi : WorldInv w)
    (hpend : w.pending = none) (hmutex : w.mutex = .evaluator s)
    (hk : s.latchedError ≠ 0 → w.core.machineState ≠ .faulted →
      w.core.machineState ≠ .recovering → w.traj.AtRest) :
    WorldInv { w with
      mutex := .free
      core := w.core.evaluatePeriodic s.appliedRpmMilli s.generatedRpmMilli s.rampActive
        s.latchedError } := by
  have hl : w.core.machineState.level.Holds w.traj := by simpa [LevelInv, hpend] using hi.level
  have hok : LevelOk w.core := hi.core
  rcases StateCore.evaluatePeriodic_cases w.core s.appliedRpmMilli s.generatedRpmMilli
    s.rampActive s.latchedError with h | ⟨he, hf, hr, h⟩ | ⟨hm, h⟩ | ⟨hm, h0, h⟩ <;> rw [h]
  · exact ⟨by simp [PendingInv, hpend], hi.cfg, hok, by simpa [LevelInv, hpend] using hl, by simp⟩
  · exact ⟨by simp [PendingInv, hpend], hi.cfg, ⟨hok.ops, hok.dest⟩,
      by simpa [LevelInv, hpend, MachineState.level, Level.Holds] using hk he hf hr, by simp⟩
  · exact ⟨by simp [PendingInv, hpend], hi.cfg, ⟨hok.ops, hok.dest⟩,
      by simp [LevelInv, hpend, MachineState.level, Level.Holds], by simp⟩
  · exact ⟨by simp [PendingInv, hpend], hi.cfg, ⟨hok.ops, hok.dest⟩,
      by simpa [LevelInv, hpend, MachineState.level, Level.Holds] using
        hi.snapshot s hmutex hm h0, by simp⟩

theorem worldInv_tick {w : World} {calls : StepTranscript} {traj : Traj} {gen : StepGen}
    (hi : WorldInv w) (hd : Traj.Does Traj.tick w calls () traj gen) :
    WorldInv { w with traj := traj, gen := gen } := by
  have hrest : w.traj.AtRest → traj.AtRest := fun h => (hd.of_wpT (Traj.tick_rest w.traj h)).1
  have hcfg : traj.cfg = w.traj.cfg := (hd.of_wpT (Traj.tick_frame w.traj)).1.1
  refine ⟨hi.pending, hcfg ▸ hi.cfg, hi.core, ?_, fun s hs hm h0 => hrest (hi.snapshot s hs hm h0)⟩
  have hl := hi.level
  unfold LevelInv at hl ⊢
  cases hpend : w.pending with
  | none =>
    simp only [hpend] at hl
    exact hl.tick hd
  | some p =>
    cases p with
    | call q k =>
      simp only [hpend] at hl
      obtain ⟨ℓ, h1, h2⟩ := hl
      exact ⟨ℓ, h1.tick hd, h2⟩
    | delay q k =>
      simp only [hpend] at hl
      exact ⟨hl.1, hrest hl.2.1, hl.2.2⟩

theorem worldInv_step {m : MotionMove} (hi : WorldInv m.pre)
    (hs : MotionStep m.pre m.ev m.post) (hk : FaultsAtRest m) : WorldInv m.post := by
  have hpost := (pendingInv_step hi.pending hs).1
  obtain ⟨w, ev, w'⟩ := m
  dsimp only at hi hs hpost ⊢
  cases hs with
  | operation op hpend hmutex hop hev => exact worldInv_operation hi hpend hev hpost
  | estop hpend => exact worldInv_estop hi hpend hpost
  | callback hpend hd => exact worldInv_callback hi hpend (callback_effect hd) hpost
  | recoverDelay hpend hd =>
    have htraj := (hd.of_wpT (Traj.recoverVerify_wp w.traj)).1
    dsimp only at htraj
    subst htraj
    exact worldInv_recoverDelay hi hpend hpost
  | snapshot hmutex hd =>
    obtain ⟨htraj, hs⟩ := (hd.of_wpT (Traj.getSnapshot_wp w.traj)).1
    dsimp only at htraj hs
    subst htraj
    exact worldInv_snapshot hi hmutex hs hpost
  | @evaluate s hpend hmutex =>
    refine worldInv_evaluate hi hpend hmutex fun herr => hk rfl ?_
    simpa [World.snapshotError, hmutex] using herr
  | tick hd => exact worldInv_tick hi hd
  | alarm ha => exact ⟨hpost, hi.cfg, hi.core, hi.level, hi.snapshot⟩

/-- `FAULTED` is entered at rest, and no tick in it moves the motor. -/
def FaultedInhibits (ms : List MotionMove) : Prop :=
  ∀ m ∈ ms,
    (m.pre.core.machineState ≠ .faulted → m.post.core.machineState = .faulted →
      m.post.traj.AtRest) ∧
    (m.ev.task = .tick → m.pre.core.machineState = .faulted → ∀ x ∈ m.ev.calls, x.1.moves = false)

theorem tick_still {w w' : World} {ev : MotionEvent} (hs : MotionStep w ev w')
    (htask : ev.task = .tick) (hr : w.traj.AtRest) : ∀ x ∈ ev.calls, Traj.still x.1 := by
  cases hs with
  | tick hd => exact (hd.of_wpT (Traj.tick_rest w.traj hr)).2
  | _ => simp at htask

/-- Evaluating a new lower-layer error leaves the trajectory as it is. -/
theorem evaluate_faults {w w' : World} {ev : MotionEvent} (hs : MotionStep w ev w')
    (htask : ev.task = .evaluate) (herr : w.snapshotError ≠ 0)
    (hf : w.core.machineState ≠ .faulted) (hr : w.core.machineState ≠ .recovering) :
    w'.traj = w.traj ∧ w'.core.machineState = .faulted := by
  cases hs with
  | @evaluate s hpend hmutex =>
    simp only [World.snapshotError, hmutex] at herr
    simp [StateCore.evaluatePeriodic, StateCore.evaluateError, StateCore.evaluateStarting,
      StateCore.evaluateDecelerating, herr, hf, hr]
  | _ => simp at htask

/-- **Faults inhibit motion, exactly** when no new lower-layer error is evaluated while the
trajectory has a target or a rate. -/
theorem faulted_inhibits_iff (cfg : ArgusConfig) (gen : StepGen) (ms : List MotionMove)
    (h : IsRun MotionStep (World.init cfg gen) ms) :
    FaultedInhibits ms ↔ ∀ m ∈ ms, FaultsAtRest m := by
  constructor
  · intro hlaw m hm htask herr hf hr
    obtain ⟨htraj, hfaulted⟩ := evaluate_faults (h.step_of_mem m hm) htask herr hf hr
    exact htraj ▸ (hlaw m hm).1 hf hfaulted
  · intro hk m hm
    have hinv := (h.inv_of (worldInv_init cfg gen) hk fun _ hi hs hk => worldInv_step hi hs hk).1
    obtain ⟨hpre, hpost⟩ := hinv m hm
    refine ⟨fun _ hf => hpost.faulted_rest hf, fun htask hf x hx => ?_⟩
    exact (tick_still (h.step_of_mem m hm) htask (hpre.faulted_rest hf) x hx).1

/-- `start` goes to `FAULTED` because the driver cannot be enabled; then a tick. -/
theorem start_fault_inhibits :
    FaultedInhibits ((World.init argusConfig (.boot argusConfig)).simulate
      [(.operation (.setTarget 1000 true), driversOk), (.operation .start, driversOk),
       (.callback, fun _ => (espFail, 0)), (.tick, driversOk), (.snapshot, driversOk),
       (.evaluate, driversOk)]) :=
  (faulted_inhibits_iff argusConfig (.boot argusConfig) _ (World.simulate_isRun _ _)).mpr
    (by decide +kernel)

/-- Every driver call answers `ESP_OK` but `gptimer_start`. -/
def timerFails (c : Hw) : EspErr × UInt64 := (if c = .gptimerStart then espFail else espOk, 0)

/-- The timer fails to start in the first tick; the evaluator sees the error. -/
def faultedRun : List MotionMove := (World.init argusConfig (.boot argusConfig)).simulate
  [(.operation (.setTarget 1000 true), driversOk), (.operation .start, driversOk),
   (.callback, driversOk), (.callback, driversOk), (.tick, timerFails),
   (.snapshot, driversOk), (.evaluate, driversOk), (.tick, driversOk)]

/-- The last tick of `faultedRun` sets a rate of 0.4 RPM in `FAULTED`. -/
theorem faulted_moves :
    ¬ ∀ (cfg : ArgusConfig) (gen : StepGen) (ms : List MotionMove),
      IsRun MotionStep (World.init cfg gen) ms → FaultedInhibits ms := by
  intro h
  have hrun := h argusConfig (.boot argusConfig) faultedRun (World.simulate_isRun _ _)
  have hbad : ∃ m ∈ faultedRun, m.ev.task = .tick ∧ m.pre.core.machineState = .faulted ∧
      ∃ x ∈ m.ev.calls, x.1 = .setRate 400 8000 := by decide +kernel
  obtain ⟨m, hm, htask, hf, x, hx, hrate⟩ := hbad
  have := (hrun m hm).2 htask hf x hx
  rw [hrate] at this
  cases this

end Argus
