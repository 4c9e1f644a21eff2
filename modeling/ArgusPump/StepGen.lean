import Mathlib.Logic.Relation
import ArgusPump.StateCore

/-!
# The step generator

`main/argus_step_gen.c`: the GPTimer pulse engine.  Every function is a program
over the GPIO, GPTimer and FreeRTOS drivers.  A driver call hands over the static
variables and goes on with what it finds afterwards: unless the call is `masked`, a
timer alarm may have been served in between (`timerAlarm` is its callback).
Statements between two driver calls run in one piece.

Left out: log output, and `NULL` arguments.
-/

namespace Argus

open Interact

/-- `argus_config_t`, the fields the motion modules read.  `argus_config_init` sets
every one of them to a constant. -/
structure ArgusConfig where
  motorFullStepsPerRev : UInt32
  microsteps : UInt32
  gearboxRatioNum : UInt32
  gearboxRatioDen : UInt32
  maxOutputMilliRpm : Int
  accelMilliRpmPerSec : Int
  decelMilliRpmPerSec : Int
  /-- `en_gpio` is not `GPIO_NUM_NC`. -/
  enGpio : Bool
  stepActiveLow : Bool
  dirInverted : Bool
  maxOutput_nonneg : 0 ≤ maxOutputMilliRpm

/-- `argus_config_init`. -/
def argusConfig : ArgusConfig where
  motorFullStepsPerRev := 200
  microsteps := 4
  gearboxRatioNum := 10
  gearboxRatioDen := 1
  maxOutputMilliRpm := 200000
  accelMilliRpmPerSec := 10000
  decelMilliRpmPerSec := 10000
  enGpio := true
  stepActiveLow := true
  dirInverted := true
  maxOutput_nonneg := by decide

/-- `argus_conversions_steps_per_rev`. -/
def ArgusConfig.stepsPerRev (cfg : ArgusConfig) : UInt64 :=
  if cfg.gearboxRatioDen = 0 then 0
  else cfg.motorFullStepsPerRev.toUInt64 * cfg.microsteps.toUInt64 *
    cfg.gearboxRatioNum.toUInt64 / cfg.gearboxRatioDen.toUInt64

/-- `argus_step_gen_error_t`. -/
inductive StepGenError
  | none | initFailed | timingUpdateFailed | unverifiedEnable
deriving DecidableEq, Repr

def StepGenError.code : StepGenError → UInt32
  | .none => 0
  | .initFailed => 1
  | .timingUpdateFailed => 2
  | .unverifiedEnable => 3

/-- `argus_timing_settings_t`. -/
structure Timing where
  integer : UInt64
  remainder : UInt64
  denominator : UInt64
  directionForward : Bool
  immediateStop : Bool
deriving DecidableEq, Repr

def Timing.zero : Timing := ⟨0, 0, 0, false, false⟩

/-- The static variables of the module; `timer` says that `s_timer` is set, `enGpio`
that `s_en_gpio` is. -/
structure StepGen where
  timer : Bool
  requestedRpmMilli : Int
  generatedRpmMilli : Int
  pendingTiming : Timing
  activeTiming : Timing
  remAccumulator : UInt64
  nextStepTicks : UInt64
  stepCount : Int
  forward : Bool
  running : Bool
  driverEnabled : Bool
  lastDeassertionTicks : UInt64
  errorState : StepGenError
  enGpio : Bool
  stepActiveLevel : Nat
  stepInactiveLevel : Nat
  dirForwardLevel : Nat
  dirReverseLevel : Nat
  /-- `pin_asserted` of the alarm callback. -/
  pinAsserted : Bool
deriving DecidableEq, Repr

/-- The static variables before `argus_step_gen_init`. -/
def StepGen.unset : StepGen where
  timer := false
  requestedRpmMilli := 0
  generatedRpmMilli := 0
  pendingTiming := .zero
  activeTiming := .zero
  remAccumulator := 0
  nextStepTicks := 0
  stepCount := 0
  forward := true
  running := false
  driverEnabled := false
  lastDeassertionTicks := 0
  errorState := .none
  enGpio := false
  stepActiveLevel := 0
  stepInactiveLevel := 1
  dirForwardLevel := 0
  dirReverseLevel := 1
  pinAsserted := false

inductive Pin
  | step | dir | en
deriving DecidableEq, Repr

/-- Driver calls. -/
inductive Hw
  /-- `xSemaphoreTake(s_lifecycle_mutex, ..)`; `ESP_OK` stands for `pdTRUE`. -/
  | takeLifecycle
  /-- `taskEXIT_CRITICAL`: a pending alarm is served here. -/
  | exitCritical
  | gpioConfig (pins : List Pin)
  | gpioSetLevel (pin : Pin) (level : Nat)
  | gptimerNewTimer
  | gptimerRegisterEventCallbacks
  | gptimerEnable
  | gptimerStart
  | gptimerStop
  | gptimerGetRawCount
  | gptimerSetAlarmAction (alarmCount : UInt64)
  | delayMs (ms : Nat)
  | delayUs (us : Nat)
deriving DecidableEq, Repr

/-- `masked`: made inside a critical section or by the alarm callback, so no alarm is
served before it returns. -/
structure HwCall where
  call : Hw
  gen : StepGen
  masked : Bool

/-- `count` is the answer of `gptimer_get_raw_count`. -/
structure HwAnswer where
  result : EspErr
  count : UInt64
  gen : StepGen

abbrev GenM := StateT StepGen (Prog HwCall fun _ => HwAnswer)

namespace StepGen

def hw (c : Hw) (masked : Bool) : GenM EspErr := fun gen =>
  .ask ⟨c, gen, masked⟩ fun r => .ret (r.result, r.gen)

def hw_ (c : Hw) (masked : Bool) : GenM Unit := fun gen =>
  .ask ⟨c, gen, masked⟩ fun r => .ret ((), r.gen)

/-- `gptimer_get_raw_count` into a variable that holds `0`. -/
def rawCount (masked : Bool) : GenM (EspErr × UInt64) := fun gen =>
  .ask ⟨.gptimerGetRawCount, gen, masked⟩ fun r =>
    .ret ((r.result, if r.result = espOk then r.count else 0), r.gen)

def setStep (active masked : Bool) : GenM Unit := do
  let gen ← get
  hw_ (.gpioSetLevel .step (if active then gen.stepActiveLevel else gen.stepInactiveLevel)) masked

def setDir (masked : Bool) : GenM Unit := do
  let gen ← get
  hw_ (.gpioSetLevel .dir (if gen.forward then gen.dirForwardLevel else gen.dirReverseLevel)) masked

/-! ## The timer alarm -/

/-- Schedule the next alarm, at least 30 ticks in the future. -/
def scheduleAlarm (nextAlarm : UInt64) : GenM Unit := do
  let (err, now) ← rawCount true
  let nextAlarm := if err = espOk ∧ nextAlarm ≤ now + 30 then now + 30 else nextAlarm
  hw_ (.gptimerSetAlarmAction nextAlarm) true

/-- `argus_timer_alarm_cb`. -/
def timerAlarm (currentAlarm : UInt64) : GenM Unit := do
  if (← get).pinAsserted then
    setStep false true
    modify fun gen => { gen with pinAsserted := false, lastDeassertionTicks := currentAlarm }
    let gen ← get
    if gen.pendingTiming.directionForward ≠ gen.forward then
      set { gen with forward := gen.pendingTiming.directionForward }
      setDir true
    let gen ← get
    let lowDuration := if gen.nextStepTicks > 150 then gen.nextStepTicks - 150 else 1
    scheduleAlarm (currentAlarm + lowDuration)
  else
    if ¬ (← get).running ∨ ¬ (← get).driverEnabled then
      setStep false true
      return
    modify fun gen =>
      if gen.pendingTiming.immediateStop then
        { gen with
          activeTiming := { gen.activeTiming with integer := 0, remainder := 0, denominator := 0 }
          generatedRpmMilli := 0
          pendingTiming := { gen.pendingTiming with immediateStop := false } }
      else if gen.activeTiming.integer ≠ gen.pendingTiming.integer ∨
          gen.activeTiming.remainder ≠ gen.pendingTiming.remainder ∨
          gen.activeTiming.denominator ≠ gen.pendingTiming.denominator then
        { gen with
          activeTiming := gen.pendingTiming
          generatedRpmMilli := gen.requestedRpmMilli
          remAccumulator := 0 }
      else gen
    if (← get).activeTiming.integer = 0 then
      setStep false true
      return
    setStep true true
    modify fun gen =>
      -- Bresenham accumulator to schedule exact timing intervals
      let acc := gen.remAccumulator + gen.activeTiming.remainder
      let carry : Bool := acc ≥ gen.activeTiming.denominator
      { gen with
        pinAsserted := true
        remAccumulator := if carry then acc - gen.activeTiming.denominator else acc
        nextStepTicks := if carry then gen.activeTiming.integer + 1 else gen.activeTiming.integer
        stepCount := if gen.forward then gen.stepCount + 1 else gen.stepCount - 1 }
    scheduleAlarm (currentAlarm + 150)

/-! ## Lifecycle -/

/-- The error exit of `argus_step_gen_init` once the ENA pin has been preloaded. -/
def initFail : GenM EspErr := do
  setStep false false
  hw_ (.gpioSetLevel .en 1) false
  modify fun gen => { gen with errorState := .initFailed }
  return espFail

/-- `argus_step_gen_init`; the lifecycle mutex is taken to exist. -/
def init (cfg : ArgusConfig) : GenM EspErr := do
  modify fun gen => { gen with
    enGpio := cfg.enGpio
    stepActiveLevel := if cfg.stepActiveLow then 0 else 1
    stepInactiveLevel := if cfg.stepActiveLow then 1 else 0
    dirForwardLevel := if cfg.dirInverted then 0 else 1
    dirReverseLevel := if cfg.dirInverted then 1 else 0
    requestedRpmMilli := 0
    generatedRpmMilli := 0
    remAccumulator := 0
    nextStepTicks := 0
    stepCount := 0
    forward := true
    running := false
    driverEnabled := false
    lastDeassertionTicks := 0
    errorState := .none }
  if (← hw (.gpioConfig [.step, .dir]) false) ≠ espOk then
    modify fun gen => { gen with errorState := .initFailed }
    return espFail
  setStep false false
  setDir false
  -- Glitch-free ENA initialization: preload the latch to HIGH, then make it an output
  hw_ (.gpioSetLevel .en 1) false
  if (← hw (.gpioConfig [.en]) false) ≠ espOk then return ← initFail
  modify fun gen => { gen with driverEnabled := false }
  if (← hw .gptimerNewTimer false) ≠ espOk then return ← initFail
  modify fun gen => { gen with timer := true }
  if (← hw (.gptimerSetAlarmAction 10000) false) ≠ espOk then return ← initFail
  if (← hw .gptimerRegisterEventCallbacks false) ≠ espOk then return ← initFail
  if (← hw .gptimerEnable false) ≠ espOk then return ← initFail
  return espOk

def arm : GenM EspErr := do
  if ¬ (← get).timer then return espErrInvalidState
  if (← hw .takeLifecycle false) ≠ espOk then return espErrTimeout
  modify fun gen =>
    let pending : Timing := ⟨0, 0, 0, gen.forward, false⟩
    { gen with
      requestedRpmMilli := 0
      generatedRpmMilli := 0
      running := false
      pendingTiming := pending
      activeTiming := pending }
  hw_ .exitCritical false
  let err ← hw .gptimerStart false
  if err = espErrInvalidState then return espOk
  if err ≠ espOk then
    setStep false false
    modify fun gen => { gen with errorState := .timingUpdateFailed }
  return err

/-- `argus_step_gen_enable_driver`; idempotent. -/
def enableDriver : GenM EspErr := do
  if ¬ (← get).enGpio then return espErrInvalidState
  if (← hw .takeLifecycle false) ≠ espOk then return espErrTimeout
  if ¬ (← get).driverEnabled then
    hw_ (.gpioSetLevel .en 0) false
    modify fun gen => { gen with driverEnabled := true }
    hw_ (.delayMs 20) false
  return espOk

/-- What `stop_immediate` and `disable_driver` do in their critical section. -/
def halt (gen : StepGen) : StepGen :=
  { gen with
    running := false
    requestedRpmMilli := 0
    generatedRpmMilli := 0
    pendingTiming := ⟨0, 0, 0, gen.pendingTiming.directionForward, true⟩
    activeTiming := .zero }

/-- `argus_step_gen_disable_driver`; idempotent. -/
def disableDriver : GenM EspErr := do
  if ¬ (← get).enGpio then return espErrInvalidState
  if (← hw .takeLifecycle false) ≠ espOk then return espErrTimeout
  modify halt
  hw_ .exitCritical false
  if (← get).timer then hw_ .gptimerStop false
  setStep false false
  hw_ (.gpioSetLevel .en 1) false
  modify fun gen => { gen with driverEnabled := false, errorState := .none }
  return espOk

def setDirection (forward : Bool) : GenM EspErr := do
  if (← hw .takeLifecycle false) ≠ espOk then return espErrTimeout
  let gen ← get
  -- Reject DIR change if actively generating non-zero speed
  if gen.running ∧ gen.activeTiming.integer > 0 then return espErrInvalidState
  let lastDeassertion := gen.lastDeassertionTicks
  hw_ .exitCritical false
  if (← get).timer then
    let (err, count) ← rawCount false
    if err ≠ espOk ∨ count - lastDeassertion < 50 then hw_ (.delayUs 5) false
  modify fun gen =>
    { gen with
      pendingTiming := { gen.pendingTiming with directionForward := forward }, forward := forward }
  setDir true
  hw_ .exitCritical false
  hw_ (.delayUs 5) false
  return espOk

/-! ## Rates -/

/-- The first pulse when the rate leaves 0 while running. -/
def kickstart (rpmMilli : Int) : GenM EspErr := do
  let err ← hw .gptimerStart false
  if err ≠ espOk ∧ err ≠ espErrInvalidState then
    modify fun gen => { gen with errorState := .timingUpdateFailed }
    return err
  let (_, count) ← rawCount false
  modify fun gen => { gen with
    activeTiming := gen.pendingTiming
    generatedRpmMilli := rpmMilli
    remAccumulator := 0
    forward := gen.pendingTiming.directionForward }
  hw_ .exitCritical false
  setDir false
  hw_ (.delayUs 5) false
  setStep true false
  modify fun gen => { gen with
    nextStepTicks := gen.activeTiming.integer
    stepCount := if gen.forward then gen.stepCount + 1 else gen.stepCount - 1 }
  hw_ (.gptimerSetAlarmAction (count + 150)) false
  modify fun gen => { gen with errorState := .none }
  return espOk

/-- A rejected rate. -/
def rejectRate : GenM EspErr := do
  modify fun gen => { gen with errorState := .timingUpdateFailed }
  return espErrInvalidArg

/-- `argus_step_gen_set_rate_rpm_milli`. -/
def setRate (rpmMilli : Int) (stepsPerRev : UInt32) : GenM EspErr := do
  if ¬ (← get).timer then return espErrInvalidState
  if rpmMilli = 0 then
    modify fun gen => { gen with
      requestedRpmMilli := 0
      pendingTiming := { gen.pendingTiming with integer := 0, remainder := 0, denominator := 0 } }
    hw_ .exitCritical false
    setStep false false
    return espOk
  if stepsPerRev = 0 then return ← rejectRate
  if rpmMilli < 1 ∨ rpmMilli > 200000 then return ← rejectRate
  if ¬ (← get).driverEnabled then
    let err ← enableDriver
    if err ≠ espOk then return err
  -- Ticks = 10,000,000 * 60,000 / (rpm_milli * steps_per_rev)
  let num : UInt64 := 600000000000
  let den : UInt64 := UInt64.ofNat rpmMilli.toNat * stepsPerRev.toUInt64
  if num / den < 300 then return ← rejectRate
  modify fun gen => { gen with
    requestedRpmMilli := rpmMilli
    pendingTiming := { gen.pendingTiming with
      integer := num / den, remainder := num % den, denominator := den, immediateStop := false } }
  hw_ .exitCritical false
  if (← get).generatedRpmMilli = 0 ∧ (← get).running then return ← kickstart rpmMilli
  modify fun gen => { gen with errorState := .none }
  return espOk

def start : GenM EspErr := do
  if ¬ (← get).timer then return espErrInvalidState
  if (← hw .takeLifecycle false) ≠ espOk then return espErrTimeout
  modify fun gen => { gen with running := true }
  let err ← hw .gptimerStart false
  return if err = espErrInvalidState then espOk else err

def stopImmediate : GenM EspErr := do
  if ¬ (← get).timer then return espErrInvalidState
  if (← hw .takeLifecycle false) ≠ espOk then return espErrTimeout
  let wasRunning := (← get).running
  modify halt
  hw_ .exitCritical false
  let err ← if wasRunning then hw .gptimerStop false else pure espOk
  if err ≠ espOk ∧ err ≠ espErrInvalidState then
    modify fun gen => { gen with errorState := .timingUpdateFailed }
  setStep false false
  let (countErr, count) ← rawCount false
  if countErr = espOk then modify fun gen => { gen with lastDeassertionTicks := count }
  modify fun gen => { gen with errorState := .none }
  return err

def stopProfiled : GenM EspErr := do
  modify fun gen => { gen with
    requestedRpmMilli := 0
    pendingTiming := { gen.pendingTiming with integer := 0, remainder := 0, denominator := 0 } }
  hw_ .exitCritical false
  modify fun gen => { gen with errorState := .none }
  return espOk

def clearError : GenM Unit := modify fun gen => { gen with errorState := .none }

end StepGen

/-- One alarm, served in one piece. -/
def StepGen.AlarmStep (gen gen' : StepGen) : Prop :=
  ∃ currentAlarm calls,
    Prog.Runs (fun q r => r.gen = q.gen) (StepGen.timerAlarm currentAlarm gen) calls ((), gen')

/-- What a driver call leaves: any number of alarms, if they are not masked. -/
def StepGen.afterCall (q : HwCall) (r : HwAnswer) : Prop :=
  if q.masked then r.gen = q.gen else Relation.ReflTransGen StepGen.AlarmStep q.gen r.gen

theorem StepGen.afterCall_quiet {q : HwCall} {r : HwAnswer} (h : r.gen = q.gen) :
    StepGen.afterCall q r := by
  unfold afterCall
  split
  · exact h
  · rw [h]

end Argus
