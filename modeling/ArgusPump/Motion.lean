import ArgusPump.Trajectory
import ArgusPump.StateCoreRuns

/-!
# The state manager over the trajectory engine

The production system of `argus_state_mgr.c`: the state core calls the trajectory
engine through `s_production_ops`, the engine calls the step generator.  A step of
the system is one piece of one task:

* a state manager call takes its mutexes and runs to its first callback;
* a callback runs, and its operation goes on to the next one or returns
  (`argus_trajectory_recover` makes two pieces of it);
* the evaluator takes its snapshot, and later evaluates it;
* the trajectory task ticks; a timer alarm is served.

`s_state_mutex` is held across an operation; `s_command_mutex` keeps the evaluator
and all operations but `estop` apart.
-/

namespace Argus

open Interact

/-- `s_production_ops`; the first part of `argus_trajectory_recover` for `recover`. -/
def Callback.prod : Callback → TrajM UInt32
  | .enableDriver => Traj.enableDriver
  | .disableDriver => Traj.unlock
  | .setTargetRate rpmMilli forward => Traj.setTargetRpmMilli rpmMilli forward
  | .stopImmediate => Traj.stopImmediate
  | .stopNormal => Traj.stopNormal
  | .recover => Traj.recoverStop
  | .getError => do return (← Traj.getSnapshot).latchedError

/-- What is left of an operation that holds `s_state_mutex`. -/
inductive Pending
  /-- The callback of `q` is next. -/
  | call (q : CoreCall) (k : CoreAnswer → CoreProg)
  /-- `argus_trajectory_recover`, called with `q`, is in its delay. -/
  | delay (q : CoreCall) (k : CoreAnswer → CoreProg)

/-- Who holds `s_command_mutex`; the evaluator with its snapshot. -/
inductive CommandMutex
  | free
  | operation
  | evaluator (snapshot : TrajSnapshot)
deriving DecidableEq, Repr

structure World where
  core : StateCore
  pending : Option Pending
  mutex : CommandMutex
  traj : Traj
  gen : StepGen

def World.init (cfg : ArgusConfig) (gen : StepGen) : World where
  core := .init productionOps
  pending := none
  mutex := .free
  traj := .init cfg
  gen := gen

/-- An operation has got as far as `p`: the core in memory, and what is left. -/
def World.settle (w : World) : CoreProg → World
  | .ret a =>
    { w with
      core := a.2
      pending := none
      mutex := if w.mutex = .operation then .free else w.mutex }
  | .ask q k => { w with core := q.core, pending := some (.call q k) }

@[simp] theorem World.settle_traj (w : World) (p : CoreProg) : (w.settle p).traj = w.traj := by
  cases p <;> rfl

inductive Task
  | operation (op : CoreOp)
  | callback
  | recoverDelay
  | snapshot
  | evaluate
  | tick
  | alarm
deriving DecidableEq, Repr

abbrev StepTranscript := List ((_ : StepCall) × StepAnswer)

/-- A step of a task, and the step generator's functions it called. -/
structure MotionEvent where
  task : Task
  calls : StepTranscript

abbrev MotionMove := Move World MotionEvent

/-- A function of the step generator runs; its driver calls may answer anything. -/
def genHandler (c : StepCall) (gen : StepGen) (r : StepAnswer) (gen' : StepGen) : Prop :=
  ∃ calls, Prog.Runs StepGen.afterCall (c.prog gen) calls (r, gen')

/-- A function of the trajectory engine runs. -/
def Traj.Does {α : Type} (m : TrajM α) (w : World) (calls : StepTranscript) (a : α)
    (traj : Traj) (gen : StepGen) : Prop :=
  Prog.Exec genHandler (m w.traj) w.gen calls (a, traj) gen

inductive MotionStep : World → MotionEvent → World → Prop
  | operation {w : World} (op : CoreOp) : w.pending = none → w.mutex = .free → op ≠ .estop →
      (∀ a g r e, op ≠ .evaluatePeriodic a g r e) →
      MotionStep w ⟨.operation op, []⟩
        ({ w with mutex := .operation }.settle (op.prog w.core))
  | estop {w : World} : w.pending = none →
      MotionStep w ⟨.operation .estop, []⟩ (w.settle w.core.estop)
  | callback {w : World} {q : CoreCall} {k : CoreAnswer → CoreProg} {calls : StepTranscript}
      {v : UInt32} {traj : Traj} {gen : StepGen} : w.pending = some (.call q k) →
      Traj.Does q.callback.prod w calls v traj gen →
      MotionStep w ⟨.callback, calls⟩
        (if q.callback = .recover ∧ v = espOk then
          { w with traj := traj, gen := gen, pending := some (.delay q k) }
        else { w with traj := traj, gen := gen }.settle (k ⟨v, q.core⟩))
  | recoverDelay {w : World} {q : CoreCall} {k : CoreAnswer → CoreProg} {calls : StepTranscript}
      {v : UInt32} {traj : Traj} {gen : StepGen} : w.pending = some (.delay q k) →
      Traj.Does Traj.recoverVerify w calls v traj gen →
      MotionStep w ⟨.recoverDelay, calls⟩ ({ w with traj := traj, gen := gen }.settle (k ⟨v, q.core⟩))
  | snapshot {w : World} {calls : StepTranscript} {s : TrajSnapshot} {traj : Traj}
      {gen : StepGen} : w.mutex = .free → Traj.Does Traj.getSnapshot w calls s traj gen →
      MotionStep w ⟨.snapshot, calls⟩ { w with mutex := .evaluator s, traj := traj, gen := gen }
  | evaluate {w : World} {s : TrajSnapshot} : w.pending = none → w.mutex = .evaluator s →
      MotionStep w ⟨.evaluate, []⟩ { w with
        mutex := .free
        core := w.core.evaluatePeriodic s.appliedRpmMilli s.generatedRpmMilli s.rampActive
          s.latchedError }
  | tick {w : World} {calls : StepTranscript} {traj : Traj} {gen : StepGen} :
      Traj.Does Traj.tick w calls () traj gen →
      MotionStep w ⟨.tick, calls⟩ { w with traj := traj, gen := gen }
  | alarm {w : World} {gen : StepGen} : StepGen.AlarmStep w.gen gen →
      MotionStep w ⟨.alarm, []⟩ { w with gen := gen }

/-! ## Simulation -/

/-- A driver that answers `script` and serves no alarm. -/
def scripted (script : Hw → EspErr × UInt64) (q : HwCall) : HwAnswer :=
  ⟨(script q.call).1, (script q.call).2, q.gen⟩

/-- Every driver call answers `ESP_OK`. -/
def driversOk (_ : Hw) : EspErr × UInt64 := (espOk, 0)

/-- A function of the step generator against a script. -/
def genPlay (script : Hw → EspErr × UInt64) (c : StepCall) (gen : StepGen) :
    StepAnswer × StepGen :=
  ((c.prog gen).play (scripted script)).2

theorem genPlay_handler (script : Hw → EspErr × UInt64) (c : StepCall) (gen : StepGen) :
    genHandler c gen (genPlay script c gen).1 (genPlay script c gen).2 :=
  ⟨_, Prog.play_runs (fun _ => StepGen.afterCall_quiet rfl) (c.prog gen)⟩

/-- A function of the trajectory engine against a script. -/
def Traj.play {α : Type} (m : TrajM α) (w : World) (script : Hw → EspErr × UInt64) :
    StepTranscript × (α × Traj) × StepGen :=
  (m w.traj).playS (genPlay script) w.gen

theorem Traj.play_does {α : Type} (m : TrajM α) (w : World) (script : Hw → EspErr × UInt64) :
    Traj.Does m w (play m w script).1 (play m w script).2.1.1 (play m w script).2.1.2
      (play m w script).2.2 :=
  Prog.playS_exec (genPlay_handler script) (m w.traj) w.gen

/-- The step of a task, if it can take one; alarms are not simulated. -/
def World.advance (w : World) (script : Hw → EspErr × UInt64) :
    Task → Option (StepTranscript × World)
  | .operation op =>
    if w.pending.isSome then none
    else match op with
      | .estop => some ([], w.settle w.core.estop)
      | .evaluatePeriodic _ _ _ _ => none
      | op =>
        if w.mutex = .free then
          some ([], { w with mutex := .operation }.settle (op.prog w.core))
        else none
  | .callback =>
    match w.pending with
    | some (.call q k) =>
      let out := Traj.play q.callback.prod w script
      some (out.1,
        if q.callback = .recover ∧ out.2.1.1 = espOk then
          { w with traj := out.2.1.2, gen := out.2.2, pending := some (.delay q k) }
        else { w with traj := out.2.1.2, gen := out.2.2 }.settle (k ⟨out.2.1.1, q.core⟩))
    | _ => none
  | .recoverDelay =>
    match w.pending with
    | some (.delay q k) =>
      let out := Traj.play Traj.recoverVerify w script
      some (out.1, { w with traj := out.2.1.2, gen := out.2.2 }.settle (k ⟨out.2.1.1, q.core⟩))
    | _ => none
  | .snapshot =>
    if w.mutex = .free then
      let out := Traj.play Traj.getSnapshot w script
      some (out.1, { w with mutex := .evaluator out.2.1.1, traj := out.2.1.2, gen := out.2.2 })
    else none
  | .evaluate =>
    match w.mutex with
    | .evaluator s =>
      if w.pending.isSome then none
      else some ([], { w with
        mutex := .free
        core := w.core.evaluatePeriodic s.appliedRpmMilli s.generatedRpmMilli s.rampActive
          s.latchedError })
    | _ => none
  | .tick =>
    let out := Traj.play Traj.tick w script
    some (out.1, { w with traj := out.2.1.2, gen := out.2.2 })
  | .alarm => none

theorem World.advance_step {w w' : World} {script : Hw → EspErr × UInt64} {t : Task}
    {calls : StepTranscript} (h : w.advance script t = some (calls, w')) :
    MotionStep w ⟨t, calls⟩ w' := by
  cases t with
  | operation op =>
    simp only [advance] at h
    split at h
    · cases h
    next hpend =>
    have hpend : w.pending = none := by simpa using hpend
    cases op with
    | estop =>
      cases h
      exact .estop hpend
    | evaluatePeriodic a g r e => cases h
    | _ =>
      simp only at h
      split at h
      next hmutex =>
        cases h
        exact .operation _ hpend hmutex (by simp) (by simp)
      · cases h
  | callback =>
    simp only [advance] at h
    split at h
    next q k hpend =>
      cases h
      exact .callback hpend (Traj.play_does _ w script)
    · cases h
  | recoverDelay =>
    simp only [advance] at h
    split at h
    next q k hpend =>
      cases h
      exact .recoverDelay hpend (Traj.play_does _ w script)
    · cases h
  | snapshot =>
    simp only [advance] at h
    split at h
    next hmutex =>
      cases h
      exact .snapshot hmutex (Traj.play_does _ w script)
    · cases h
  | evaluate =>
    simp only [advance] at h
    split at h
    next s hmutex =>
      split at h
      · cases h
      next hpend =>
      cases h
      exact .evaluate (by simpa using hpend) hmutex
    · cases h
  | tick =>
    cases h
    exact .tick (Traj.play_does _ w script)
  | alarm => cases h

/-- The run that takes the given steps, up to the first that is impossible. -/
def World.simulate : World → List (Task × (Hw → EspErr × UInt64)) → List MotionMove
  | _, [] => []
  | w, (t, script) :: ts =>
    match w.advance script t with
    | some (calls, w') => ⟨w, ⟨t, calls⟩, w'⟩ :: w'.simulate ts
    | none => []

theorem World.simulate_isRun (w : World) (ts : List (Task × (Hw → EspErr × UInt64))) :
    IsRun MotionStep w (w.simulate ts) := by
  induction ts generalizing w with
  | nil => trivial
  | cons t ts ih =>
    unfold simulate
    split
    next calls w' h => exact ⟨rfl, advance_step h, ih w'⟩
    · trivial

/-- The step generator after `app_main` has initialised, armed and started it. -/
def StepGen.boot (cfg : ArgusConfig) : StepGen :=
  ((do
    let _ ← StepGen.init cfg
    let _ ← StepGen.arm
    StepGen.start : GenM EspErr) StepGen.unset |>.play (scripted driversOk)).2.2

/-! ## What a piece does to the trajectory -/

/-- From a `wpT` fact to the effect of an execution. -/
theorem Traj.Does.of_wpT {α : Type} {m : TrajM α} {w : World} {calls : StepTranscript} {a : α}
    {traj : Traj} {gen : StepGen} {pre : StepCall → Prop} {post : α × Traj → Prop}
    (hd : Traj.Does m w calls a traj gen) (h : Prog.wpT Traj.anyAnswer pre m post w.traj) :
    post (a, traj) ∧ ∀ x ∈ calls, pre x.1 :=
  hd.runs.of_wp h

/-- What a callback does to the trajectory. -/
structure CallbackEffect (c : Callback) (traj : Traj) (v : UInt32) (traj' : Traj) : Prop where
  cfg : traj'.cfg = traj.cfg
  /-- Only a nonzero `set_target_rate` leaves target 0. -/
  target : (∀ rpm fwd, c = .setTargetRate rpm fwd → rpm = 0) → traj.targetRpmMilli = 0 →
    traj'.targetRpmMilli = 0
  rest : (∀ rpm fwd, c = .setTargetRate rpm fwd → rpm = 0) → traj.AtRest → traj'.AtRest
  stops : c = .disableDriver ∨ c = .stopImmediate ∨ c = .recover → traj'.AtRest
  slows : c = .stopNormal → traj.cfg.isSome = true → v = espOk ∧ traj'.targetRpmMilli = 0
  accepts : (∃ rpm fwd, c = .setTargetRate rpm fwd) → traj.cfg.isSome = true → v = espOk

theorem CallbackEffect.zeroed {c : Callback} {traj : Traj} {v : UInt32}
    (h : c = .disableDriver ∨ c = .stopImmediate ∨ c = .recover) :
    CallbackEffect c traj v traj.zeroed where
  cfg := rfl
  target _ _ := rfl
  rest _ _ := traj.atRest_zeroed
  stops _ := traj.atRest_zeroed
  slows hc := by rcases h with h | h | h <;> simp [h] at hc
  accepts hc := by rcases h with h | h | h <;> simp [h] at hc

theorem CallbackEffect.frame {c : Callback} {traj : Traj} {v : UInt32}
    (h : c = .enableDriver ∨ c = .getError) : CallbackEffect c traj v traj where
  cfg := rfl
  target _ h := h
  rest _ h := h
  stops hc := by rcases h with h | h <;> simp [h] at hc
  slows hc := by rcases h with h | h <;> simp [h] at hc
  accepts hc := by rcases h with h | h <;> simp [h] at hc

theorem callback_effect {c : Callback} {w : World} {calls : StepTranscript} {v : UInt32}
    {traj : Traj} {gen : StepGen} (h : Traj.Does c.prod w calls v traj gen) :
    CallbackEffect c w.traj v traj := by
  cases c with
  | enableDriver =>
    obtain rfl := (h.of_wpT (Traj.enableDriver_wp w.traj)).1
    exact .frame (.inl rfl)
  | disableDriver =>
    obtain rfl := (h.of_wpT (Traj.unlock_wp w.traj)).1
    exact .zeroed (.inl rfl)
  | setTargetRate rpmMilli forward =>
    obtain ⟨hcfg, hok⟩ := (h.of_wpT (Traj.setTargetRpmMilli_frame w.traj rpmMilli forward)).1
    have hzero : (∀ rpm fwd, Callback.setTargetRate rpmMilli forward = .setTargetRate rpm fwd →
        rpm = 0) → traj.appliedRpmMilli = w.traj.appliedRpmMilli ∧
          (w.traj.cfg.isSome = true ∨ w.traj.targetRpmMilli = 0 → traj.targetRpmMilli = 0) := by
      intro hc
      obtain rfl := hc _ _ rfl
      exact (h.of_wpT (Traj.setTargetRpmMilli_zero w.traj forward)).1
    exact ⟨hcfg, fun hc h0 => (hzero hc).2 (.inr h0),
      fun hc hr => ⟨(hzero hc).2 (.inr hr.1), (hzero hc).1.trans hr.2⟩, by simp, by simp,
      fun _ => hok⟩
  | stopImmediate =>
    obtain rfl := (h.of_wpT (Traj.stopImmediate_wp w.traj)).1
    exact .zeroed (.inr (.inl rfl))
  | stopNormal =>
    have h : Traj.Does (Traj.setTargetRpmMilli 0 w.traj.targetForward) w calls v traj gen := h
    obtain ⟨hcfg, hok⟩ := (h.of_wpT (Traj.setTargetRpmMilli_frame w.traj 0 _)).1
    obtain ⟨happ, htgt⟩ := (h.of_wpT (Traj.setTargetRpmMilli_zero w.traj _)).1
    exact ⟨hcfg, fun _ h0 => htgt (.inr h0), fun _ hr => ⟨htgt (.inr hr.1), happ.trans hr.2⟩,
      by simp, fun _ hs => ⟨hok hs, htgt (.inl hs)⟩, by simp⟩
  | recover =>
    obtain rfl := (h.of_wpT (Traj.recoverStop_wp w.traj)).1
    exact .zeroed (.inr (.inr rfl))
  | getError =>
    have hwp : Prog.wpT Traj.anyAnswer Traj.still (Callback.getError.prod)
        (fun a => a.2 = w.traj) w.traj := by
      simp [Callback.prod, Traj.getSnapshot, Traj.still, StepCall.moves]
    obtain rfl := (h.of_wpT hwp).1
    exact .frame (.inr rfl)

/-- A callback that is not to move the motor makes no such call. -/
theorem callback_still {c : Callback} {w : World} {calls : StepTranscript} {v : UInt32}
    {traj : Traj} {gen : StepGen} (h : Traj.Does c.prod w calls v traj gen)
    (hc : c.producesMotion = false) : ∀ x ∈ calls, Traj.still x.1 := by
  cases c with
  | enableDriver => simp [Callback.producesMotion] at hc
  | disableDriver => exact (h.of_wpT (Traj.unlock_wp w.traj)).2
  | setTargetRate rpmMilli forward =>
    obtain rfl : rpmMilli = 0 := by simpa [Callback.producesMotion] using hc
    exact (h.of_wpT (Traj.setTargetRpmMilli_zero w.traj forward)).2
  | stopImmediate => exact (h.of_wpT (Traj.stopImmediate_wp w.traj)).2
  | stopNormal =>
    have h : Traj.Does (Traj.setTargetRpmMilli 0 w.traj.targetForward) w calls v traj gen := h
    exact (h.of_wpT (Traj.setTargetRpmMilli_zero w.traj _)).2
  | recover => exact (h.of_wpT (Traj.recoverStop_wp w.traj)).2
  | getError =>
    have hwp : Prog.wpT Traj.anyAnswer Traj.still (Callback.getError.prod) (fun _ => True)
        w.traj := by
      simp [Callback.prod, Traj.getSnapshot, Traj.still, StepCall.moves]
    exact (h.of_wpT hwp).2

/-! ## What operations call -/

namespace StateCore

variable {core : StateCore}

/-- `callback_wp` for callbacks that leave the core alone. -/
theorem quiet_callback_wp {pre : CoreCall → Prop} {post : EspErr × StateCore → Prop}
    {c : Callback} {k : UInt32 → StateCore → CoreProg} (hpre : pre ⟨c, core⟩)
    (h : ∀ v, (k v core).wp quiet pre post) : (core.callback c k).wp quiet pre post := by
  unfold callback
  split
  · refine ⟨hpre, fun r hr => ?_⟩
    have hr : r.core = core := hr
    simpa only [hr] using h r.result
  · exact h espOk

end StateCore

/-- A question that operations other than `estop` may ask, with the latch at `b`. -/
structure HarmlessCall (b : Bool) (q : CoreCall) : Prop where
  notStop : q.callback ≠ .stopImmediate
  latch : q.core.estopLatched = b
  inhibited : b = true → q.callback.producesMotion = false

/-- What is left of an operation that leaves the latch at `b`. -/
def Harmless (b : Bool) (p : CoreProg) : Prop :=
  p.wp StateCore.quiet (HarmlessCall b) fun a => a.2.estopLatched = b

theorem CoreOp.harmless (op : CoreOp) (core : StateCore) (hop : op ≠ .estop)
    (hreset : op ≠ .resetEstop) (hev : ∀ a g r e, op ≠ .evaluatePeriodic a g r e) :
    Harmless core.estopLatched (op.prog core) := by
  cases op with
  | setTarget rpmMilli forward =>
    simp only [CoreOp.prog, StateCore.setTarget]
    split; · exact rfl
    next hes =>
    split; · exact rfl
    split; · exact rfl
    split; · exact rfl
    split; · exact rfl
    split
    · refine StateCore.quiet_callback_wp ⟨by simp, rfl, fun hl => absurd (.inl hl) hes⟩ fun v => ?_
      split <;> exact rfl
    · exact rfl
  | start =>
    simp only [CoreOp.prog, StateCore.start]
    split; · exact rfl
    next hes =>
    have hl : ∀ p : Prop, core.estopLatched = true → p := fun p hl => absurd (.inl hl) hes
    split; · exact rfl
    split; · exact rfl
    split; · exact rfl
    split; · exact rfl
    have hfin : ∀ e, Harmless core.estopLatched (StateCore.startFinish core.commandGeneration e
        { core with machineState := .starting }) := by
      intro e
      unfold StateCore.startFinish
      split
      · exact rfl
      · split <;> exact rfl
    refine StateCore.quiet_callback_wp ⟨by simp, rfl, hl _⟩ fun v => ?_
    split
    · exact rfl
    · split
      · exact StateCore.quiet_callback_wp ⟨by simp, rfl, hl _⟩ hfin
      · exact hfin v
  | stopNormal =>
    simp only [CoreOp.prog, StateCore.stopNormal]
    split; · exact rfl
    split; · exact rfl
    refine StateCore.quiet_callback_wp ⟨by simp, rfl, fun _ => rfl⟩ fun v => ?_
    split <;> exact rfl
  | unlock =>
    simp only [CoreOp.prog, StateCore.unlock]
    split; · exact rfl
    split; · exact rfl
    split; · exact rfl
    exact StateCore.quiet_callback_wp ⟨by simp, rfl, fun _ => rfl⟩ fun v => rfl
  | estop => exact absurd rfl hop
  | resetEstop => exact absurd rfl hreset
  | recover =>
    simp only [CoreOp.prog, StateCore.recover]
    split; · exact rfl
    refine StateCore.quiet_callback_wp ⟨by simp, rfl, fun _ => rfl⟩ fun v => ?_
    split
    · exact rfl
    refine StateCore.quiet_callback_wp ⟨by simp, rfl, fun _ => rfl⟩ fun e => ?_
    unfold StateCore.recoverFinish
    split <;> exact rfl
  | evaluatePeriodic a g ramp err => exact absurd rfl (hev a g ramp err)

/-- `estop` has latched the core and is about to call `stop_immediate`. -/
structure EstopPending (q : CoreCall) (k : CoreAnswer → CoreProg) : Prop where
  callback : q.callback = .stopImmediate
  estopped : q.core.machineState = .emergencyStopped
  latched : q.core.estopLatched = true
  rest : k = fun r => .ret (espOk, r.core)

theorem estop_pending (core : StateCore) :
    (∃ e, core.estop = .ret (e, core.estopped)) ∨
      ∃ q k, core.estop = .ask q k ∧ EstopPending q k := by
  unfold StateCore.estop StateCore.callback
  split
  next h => exact .inl ⟨_, by rw [StateCore.estopped_eq_self h]⟩
  next h =>
  split
  · exact .inr ⟨_, _, rfl, rfl, rfl, rfl, rfl⟩
  · exact .inl ⟨_, by rw [StateCore.estopped_eq_latch h]⟩

/-- The operation in flight: an `estop`, or one that holds `s_command_mutex`. -/
def PendingInv (w : World) : Prop :=
  match w.pending with
  | none => w.mutex ≠ .operation
  | some (.call q k) => w.core = q.core ∧
      (EstopPending q k ∨ w.mutex = .operation ∧ Harmless q.core.estopLatched (.ask q k))
  | some (.delay q k) => w.core = q.core ∧ w.mutex = .operation ∧
      ∀ v, Harmless q.core.estopLatched (k ⟨v, q.core⟩)

/-- An operation with `s_command_mutex` goes on to a harmless program. -/
theorem settle_harmless {w : World} {p : CoreProg} {b : Bool} (hm : w.mutex = .operation)
    (hp : Harmless b p) : PendingInv (w.settle p) ∧ (w.settle p).core.estopLatched = b := by
  cases p with
  | ret a => exact ⟨by simp [World.settle, PendingInv, hm], hp⟩
  | ask q k =>
    have hb : q.core.estopLatched = b := hp.1.latch
    exact ⟨⟨rfl, .inr ⟨hm, hb ▸ hp⟩⟩, hb⟩

theorem resetEstop_settle {w : World} (hm : w.mutex = .operation) :
    PendingInv (w.settle w.core.resetEstop) := by
  unfold StateCore.resetEstop
  split <;> simp [World.settle, PendingInv, hm]

/-- A step keeps `PendingInv`, and all but `reset_estop` keep the latch. -/
theorem pendingInv_step {w w' : World} {ev : MotionEvent} (hi : PendingInv w)
    (hs : MotionStep w ev w') : PendingInv w' ∧
      (w.core.estopLatched = true → ev.task ≠ .operation .resetEstop →
        w'.core.estopLatched = true) := by
  cases hs with
  | operation op hpend hmutex hop hev =>
    by_cases hreset : op = .resetEstop
    · subst hreset
      exact ⟨resetEstop_settle (w := { w with mutex := .operation }) rfl, fun _ h => absurd rfl h⟩
    · obtain ⟨h1, h2⟩ := settle_harmless (w := { w with mutex := .operation }) rfl
        (op.harmless w.core hop hreset hev)
      exact ⟨h1, fun hl _ => h2.trans hl⟩
  | estop hpend =>
    rcases estop_pending w.core with ⟨e, he⟩ | ⟨q, k, he, hp⟩
    · have hne : w.mutex ≠ .operation := by simpa [PendingInv, hpend] using hi
      rw [he]
      exact ⟨by simp [World.settle, PendingInv, hne],
        fun hl _ => StateCore.estopped_latched (.inl hl)⟩
    · rw [he]
      exact ⟨⟨rfl, .inl hp⟩, fun _ _ => hp.latched⟩
  | @callback q k calls v traj gen hpend hd =>
    simp only [PendingInv, hpend] at hi
    obtain ⟨hcore, hp | ⟨hmutex, hp⟩⟩ := hi
    · rw [hp.callback, hp.rest]
      by_cases hm : w.mutex = .operation <;> simp [World.settle, PendingInv, hm, hp.latched]
    · have hk : ∀ v, Harmless q.core.estopLatched (k ⟨v, q.core⟩) := fun v => hp.2 ⟨v, q.core⟩ rfl
      split
      · exact ⟨⟨hcore, hmutex, hk⟩, fun hl _ => hl⟩
      · obtain ⟨h1, h2⟩ := settle_harmless (w := { w with traj := traj, gen := gen }) hmutex (hk v)
        exact ⟨h1, fun hl _ => h2.trans (hcore ▸ hl)⟩
  | @recoverDelay q k calls v traj gen hpend hd =>
    simp only [PendingInv, hpend] at hi
    obtain ⟨h1, h2⟩ := settle_harmless (w := { w with traj := traj, gen := gen }) hi.2.1 (hi.2.2 v)
    exact ⟨h1, fun hl _ => h2.trans (hi.1 ▸ hl)⟩
  | snapshot hmutex hd =>
    refine ⟨?_, fun hl _ => hl⟩
    unfold PendingInv at hi ⊢
    cases hpend : w.pending with
    | none => simp
    | some p =>
      cases p with
      | call q k =>
        simp only [hpend, hmutex] at hi
        exact ⟨hi.1, .inl (hi.2.resolve_right (by simp))⟩
      | delay q k => simp [hpend, hmutex] at hi
  | @evaluate s hpend hmutex =>
    refine ⟨by simp [PendingInv, hpend], fun hl _ => ?_⟩
    rcases StateCore.evaluatePeriodic_cases w.core s.appliedRpmMilli s.generatedRpmMilli
      s.rampActive s.latchedError with h | ⟨-, -, -, h⟩ | ⟨-, h⟩ | ⟨-, -, h⟩ <;> simpa [h] using hl
  | tick hd => exact ⟨hi, fun hl _ => hl⟩
  | alarm ha => exact ⟨hi, fun hl _ => hl⟩

end Argus
