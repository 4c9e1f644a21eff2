import ArgusPump.StepGen

/-!
# The trajectory engine

`main/argus_trajectory.c`: the 20 ms ramp and the calls that steer it, as programs
over the step generator's functions (`StepCall`).  Each runs under
`s_traj_mutex`, so it is one piece for the other tasks; only
`argus_trajectory_recover` gives the mutex back for its 500 ms delay and is in two
parts (`recoverStop`, `recoverVerify`).

Left out: `s_latched_error`, which nothing reads, log output and task creation.
-/

namespace Argus

open Interact

/-- The static variables of the module; `s_update_interval_ms` is 20. -/
structure Traj where
  cfg : Option ArgusConfig
  targetRpmMilli : Int
  appliedRpmMilli : Int
  targetForward : Bool
  currentForward : Bool
  rampActive : Bool
  isReversing : Bool
  accelLimit : Int
  decelLimit : Int

/-- The step generator's functions the engine calls. -/
inductive StepCall
  | start
  | stopImmediate
  | stopProfiled
  | setDirection (forward : Bool)
  | setRate (rpmMilli : Int) (stepsPerRev : UInt32)
  | enableDriver
  | disableDriver
  | isDriverEnabled
  | getGenerated
  | getSnapshot
  | clearError
deriving DecidableEq, Repr

/-- What they answer, each in its own fields; `getSnapshot` fills the last two. -/
structure StepAnswer where
  result : EspErr
  enabled : Bool
  generatedRpmMilli : Int
  errorState : StepGenError
deriving DecidableEq, Repr

def StepAnswer.ofErr (err : EspErr) : StepAnswer := ⟨err, false, 0, .none⟩

def StepCall.prog : StepCall → GenM StepAnswer
  | .start => .ofErr <$> StepGen.start
  | .stopImmediate => .ofErr <$> StepGen.stopImmediate
  | .stopProfiled => .ofErr <$> StepGen.stopProfiled
  | .setDirection forward => .ofErr <$> StepGen.setDirection forward
  | .setRate rpmMilli stepsPerRev => .ofErr <$> StepGen.setRate rpmMilli stepsPerRev
  | .enableDriver => .ofErr <$> StepGen.enableDriver
  | .disableDriver => .ofErr <$> StepGen.disableDriver
  | .isDriverEnabled => do return { StepAnswer.ofErr espOk with enabled := (← get).driverEnabled }
  | .getGenerated => do
      return { StepAnswer.ofErr espOk with generatedRpmMilli := (← get).generatedRpmMilli }
  | .getSnapshot => do
      return { StepAnswer.ofErr espOk with
        generatedRpmMilli := (← get).generatedRpmMilli, errorState := (← get).errorState }
  | .clearError => do
      StepGen.clearError
      return .ofErr espOk

/-- The calls that make the motor move. -/
def StepCall.moves : StepCall → Bool
  | .start => true
  | .setRate rpmMilli _ => rpmMilli ≠ 0
  | _ => false

abbrev TrajM := StateT Traj (Prog StepCall fun _ => StepAnswer)

/-- The value an `int32_t` holds after an operation. -/
def i32 (x : Int) : Int := x.bmod 4294967296

/-- `argus_trajectory_snapshot_t`, the fields the state manager reads. -/
structure TrajSnapshot where
  appliedRpmMilli : Int
  generatedRpmMilli : Int
  rampActive : Bool
  latchedError : UInt32
deriving DecidableEq, Repr

namespace Traj

/-- Call a function of the step generator. -/
def gen (c : StepCall) : TrajM StepAnswer := fun traj => .ask c fun r => .ret (r, traj)

/-- The static variables after `argus_trajectory_init`. -/
def init (cfg : ArgusConfig) : Traj where
  cfg := some cfg
  targetRpmMilli := 0
  appliedRpmMilli := 0
  targetForward := true
  currentForward := true
  rampActive := false
  isReversing := false
  accelLimit := cfg.accelMilliRpmPerSec
  decelLimit := cfg.decelMilliRpmPerSec

/-- Delta of a limit per 20 ms update. -/
def delta (limit : Int) : Int :=
  let d := (i32 (limit * 20)).tdiv 1000
  if d < 1 then 1 else d

/-- Complete a direction switch at rate 0. -/
def switchDirection (forward : Bool) : TrajM Unit := do
  let _ ← gen .stopImmediate
  let _ ← gen (.setDirection forward)
  modify fun traj => { traj with currentForward := forward, isReversing := false }

/-- 1. Direction reversal ramp through zero; the new applied rate. -/
def reverseRamp (traj : Traj) : TrajM Int := do
  if traj.appliedRpmMilli > 0 then
    modify fun traj => { traj with isReversing := true, rampActive := true }
    let applied := i32 (traj.appliedRpmMilli - delta traj.decelLimit)
    if applied ≤ 0 then
      switchDirection traj.targetForward
      return 0
    return applied
  else
    switchDirection traj.targetForward
    return traj.appliedRpmMilli

/-- 2. Standard target ramp; the new applied rate and `s_ramp_active`. -/
def targetRamp (traj : Traj) : Int × Bool :=
  if traj.appliedRpmMilli < traj.targetRpmMilli then
    let applied := i32 (traj.appliedRpmMilli + delta traj.accelLimit)
    if applied ≥ traj.targetRpmMilli then (traj.targetRpmMilli, false) else (applied, true)
  else if traj.appliedRpmMilli > traj.targetRpmMilli then
    let applied := i32 (traj.appliedRpmMilli - delta traj.decelLimit)
    if applied ≤ traj.targetRpmMilli then (traj.targetRpmMilli, false) else (applied, true)
  else (traj.appliedRpmMilli, false)

/-- 3. Apply speed to the pulse engine. -/
def applySpeed (applied : Int) (stepsPerRev : UInt32) : TrajM Unit := do
  if applied > 0 then
    if (← gen .isDriverEnabled).enabled = false then
      let _ ← gen .enableDriver
    let _ ← gen .start
    let _ ← gen (.setRate applied stepsPerRev)
  else if applied = 0 then
    if (← gen .getGenerated).generatedRpmMilli > 0 then
      let _ ← gen .stopProfiled

/-- `argus_trajectory_step_tick_20ms`. -/
def tick : TrajM Unit := do
  let traj ← get
  match traj.cfg with
  | none => return
  | some cfg =>
    let applied ←
      if traj.targetForward ≠ traj.currentForward ∨ traj.isReversing then reverseRamp traj
      else
        modify fun t => { t with rampActive := (targetRamp traj).2 }
        pure (targetRamp traj).1
    modify fun t => { t with appliedRpmMilli := applied }
    applySpeed applied cfg.stepsPerRev.toUInt32

def setTargetRpmMilli (rpmMilli : Int) (forward : Bool) : TrajM EspErr := do
  match (← get).cfg with
  | none => return espErrInvalidState
  | some cfg =>
    let rpmMilli := if rpmMilli < 0 then 0 else rpmMilli
    let rpmMilli := if rpmMilli > cfg.maxOutputMilliRpm then cfg.maxOutputMilliRpm else rpmMilli
    modify fun t => { t with
      targetRpmMilli := rpmMilli
      targetForward := forward
      isReversing := t.isReversing || (forward != t.currentForward && t.appliedRpmMilli > 0) }
    -- If starting from zero and driver is disabled, enable driver with 20 ms settle
    if (← get).appliedRpmMilli = 0 ∧ rpmMilli > 0 then
      if (← gen .isDriverEnabled).enabled = false then
        let _ ← gen .enableDriver
    return espOk

def stopNormal : TrajM EspErr := do
  setTargetRpmMilli 0 (← get).targetForward

/-- The four writes that `stop_immediate`, `unlock` and `recover` begin with. -/
def zeroed (traj : Traj) : Traj :=
  { traj with targetRpmMilli := 0, appliedRpmMilli := 0, rampActive := false, isReversing := false }

def stopImmediate : TrajM EspErr := do
  modify zeroed
  let _ ← gen .stopImmediate
  return espOk

def unlock : TrajM EspErr := do
  modify zeroed
  let _ ← gen .disableDriver
  return espOk

/-- `argus_trajectory_recover` up to its 500 ms delay; an error ends it there. -/
def recoverStop : TrajM EspErr := do
  modify zeroed
  let errStop := (← gen .stopImmediate).result
  let errDis := (← gen .disableDriver).result
  let _ ← gen .clearError
  return if errStop ≠ espOk then errStop else errDis

/-- `argus_trajectory_recover` after its 500 ms delay. -/
def recoverVerify : TrajM EspErr := do
  let snapshot ← gen .getSnapshot
  return if snapshot.errorState ≠ .none then espFail else espOk

def enableDriver : TrajM EspErr := do
  return (← gen .enableDriver).result

def getSnapshot : TrajM TrajSnapshot := do
  let snapshot ← gen .getSnapshot
  let traj ← get
  return ⟨traj.appliedRpmMilli, snapshot.generatedRpmMilli, traj.rampActive,
    snapshot.errorState.code⟩

/-! ## At rest -/

/-- Target and applied rate are zero. -/
def AtRest (traj : Traj) : Prop := traj.targetRpmMilli = 0 ∧ traj.appliedRpmMilli = 0

instance (traj : Traj) : Decidable traj.AtRest := inferInstanceAs (Decidable (_ ∧ _))

/-- Any answer of the step generator. -/
def anyAnswer (_ : StepCall) (_ : StepAnswer) : Prop := True

/-- Calls that neither move the motor nor enable the driver. -/
def still (c : StepCall) : Prop := c.moves = false ∧ c ≠ .enableDriver

@[simp] theorem atRest_zeroed (traj : Traj) : traj.zeroed.AtRest := ⟨rfl, rfl⟩

@[simp] theorem wpT_gen (pre : StepCall → Prop) (c : StepCall) (post : StepAnswer × Traj → Prop)
    (traj : Traj) :
    Prog.wpT anyAnswer pre (gen c) post traj ↔ pre c ∧ ∀ r, post (r, traj) := by
  simp [Prog.wpT, gen, anyAnswer]

theorem applySpeed_frame (applied : Int) (stepsPerRev : UInt32) (traj : Traj) :
    Prog.wpT anyAnswer (fun _ => True) (applySpeed applied stepsPerRev) (fun a => a.2 = traj)
      traj := by
  simp [applySpeed]

theorem applySpeed_still (stepsPerRev : UInt32) (traj : Traj) :
    Prog.wpT anyAnswer still (applySpeed 0 stepsPerRev) (fun a => a.2 = traj) traj := by
  simp [applySpeed, still, StepCall.moves]

/-- A tick moves the applied rate, never the target. -/
theorem tick_frame (traj : Traj) :
    Prog.wpT anyAnswer (fun _ => True) tick (fun a =>
      a.2.cfg = traj.cfg ∧ a.2.targetRpmMilli = traj.targetRpmMilli) traj := by
  simp only [tick, Prog.wpT_bind, Prog.wpT_get]
  cases hc : traj.cfg with
  | none => simp [hc]
  | some cfg =>
    have hspeed : ∀ (applied : Int) (t : Traj), t.cfg = some cfg →
        t.targetRpmMilli = traj.targetRpmMilli →
        Prog.wpT anyAnswer (fun _ => True) (applySpeed applied cfg.stepsPerRev.toUInt32)
          (fun a => a.2.cfg = some cfg ∧ a.2.targetRpmMilli = traj.targetRpmMilli) t := by
      intro applied t h1 h2
      refine Prog.wp_mono (fun _ _ h => h) (fun _ h => h) ?_ _ (applySpeed_frame applied _ t)
      rintro a rfl
      exact ⟨h1, h2⟩
    simp only [Prog.wpT_bind, Prog.wpT_modify, Prog.wpT_ite]
    split
    · simp only [reverseRamp, switchDirection, Prog.wpT_ite, Prog.wpT_bind, Prog.wpT_modify,
        wpT_gen, Prog.wpT_pure]
      split_ifs <;> simp [hspeed, hc]
    · simp [hspeed, hc]

/-- A tick at rest stays there and lets the motor stand. -/
theorem tick_rest (traj : Traj) (h : traj.AtRest) :
    Prog.wpT anyAnswer still tick (fun a => a.2.AtRest) traj := by
  obtain ⟨h0, h1⟩ := h
  have hspeed : ∀ (stepsPerRev : UInt32) (t : Traj), t.AtRest →
      Prog.wpT anyAnswer still (applySpeed 0 stepsPerRev) (fun a => a.2.AtRest) t := by
    intro stepsPerRev t ht
    refine Prog.wp_mono (fun _ _ h => h) (fun _ h => h) ?_ _ (applySpeed_still stepsPerRev t)
    rintro a rfl
    exact ht
  simp only [tick, Prog.wpT_bind, Prog.wpT_get]
  cases hc : traj.cfg with
  | none => exact ⟨h0, h1⟩
  | some cfg =>
    simp only [Prog.wpT_bind, Prog.wpT_modify, Prog.wpT_ite]
    split
    · simp only [reverseRamp, switchDirection, h1, gt_iff_lt, Int.lt_irrefl, if_false,
        Prog.wpT_bind, Prog.wpT_modify, wpT_gen, Prog.wpT_pure]
      exact ⟨⟨rfl, by simp⟩, fun _ => ⟨⟨rfl, by simp⟩, fun _ => hspeed _ _ ⟨h0, rfl⟩⟩⟩
    · simp only [targetRamp, h0, h1, gt_iff_lt, Int.lt_irrefl, if_false, Prog.wpT_pure]
      exact hspeed _ _ ⟨rfl, rfl⟩

/-! ## The calls that steer -/

theorem setTargetRpmMilli_frame (traj : Traj) (rpmMilli : Int) (forward : Bool) :
    Prog.wpT anyAnswer (fun _ => True) (setTargetRpmMilli rpmMilli forward) (fun a =>
      a.2.cfg = traj.cfg ∧ (traj.cfg.isSome = true → a.1 = espOk)) traj := by
  simp only [setTargetRpmMilli, Prog.wpT_bind, Prog.wpT_get]
  cases hc : traj.cfg with
  | none => simp [hc]
  | some cfg => simp [hc]

/-- A target of 0 is taken as it is, and the driver is left alone. -/
theorem setTargetRpmMilli_zero (traj : Traj) (forward : Bool) :
    Prog.wpT anyAnswer still (setTargetRpmMilli 0 forward) (fun a =>
      a.2.appliedRpmMilli = traj.appliedRpmMilli ∧
      (traj.cfg.isSome = true ∨ traj.targetRpmMilli = 0 → a.2.targetRpmMilli = 0)) traj := by
  simp only [setTargetRpmMilli, Prog.wpT_bind, Prog.wpT_get]
  cases hc : traj.cfg with
  | none => simp
  | some cfg =>
    have hmax := cfg.maxOutput_nonneg
    have hle : ¬ (0 : Int) > cfg.maxOutputMilliRpm := by omega
    simp [hle]

theorem stopImmediate_wp (traj : Traj) :
    Prog.wpT anyAnswer still stopImmediate (fun a => a.2 = traj.zeroed) traj := by
  simp [stopImmediate, still, StepCall.moves]

theorem unlock_wp (traj : Traj) :
    Prog.wpT anyAnswer still unlock (fun a => a.2 = traj.zeroed) traj := by
  simp [unlock, still, StepCall.moves]

theorem recoverStop_wp (traj : Traj) :
    Prog.wpT anyAnswer still recoverStop (fun a => a.2 = traj.zeroed) traj := by
  simp [recoverStop, still, StepCall.moves]

theorem recoverVerify_wp (traj : Traj) :
    Prog.wpT anyAnswer still recoverVerify (fun a => a.2 = traj) traj := by
  simp [recoverVerify, still, StepCall.moves]

theorem enableDriver_wp (traj : Traj) :
    Prog.wpT anyAnswer (fun _ => True) enableDriver (fun a => a.2 = traj) traj := by
  simp [enableDriver]

theorem getSnapshot_wp (traj : Traj) :
    Prog.wpT anyAnswer still getSnapshot (fun a =>
      a.2 = traj ∧ a.1.appliedRpmMilli = traj.appliedRpmMilli) traj := by
  simp [getSnapshot, still, StepCall.moves]

end Traj

end Argus
