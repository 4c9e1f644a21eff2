import ArgusPump.Lib.Prog

/-!
# The machine state core

`argus_state_core_*` of `main/argus_state_mgr.c`.  Each operation is a program
over the lower-layer operations table: it asks for a callback, handing over the
core as it stands in memory, and goes on with the callback's result and the core
it finds afterwards (an E-stop may have run meanwhile).  A NULL table entry is
skipped and counts as `ESP_OK` (`0` for `get_error`).

Left out: the core fields that only `argus_state_core_get_snapshot` reads back
(they keep their zeros), log output, and the NULL checks on `core`.
-/

namespace Argus

open Interact

/-- The 32 bits of an `esp_err_t`. -/
abbrev EspErr := UInt32

def espOk : EspErr := 0
def espFail : EspErr := 0xFFFFFFFF
def espErrNoMem : EspErr := 0x101
def espErrInvalidArg : EspErr := 0x102
def espErrInvalidState : EspErr := 0x103
def espErrInvalidSize : EspErr := 0x104
def espErrNotFound : EspErr := 0x105
def espErrNotSupported : EspErr := 0x106
def espErrTimeout : EspErr := 0x107
def espErrNotAllowed : EspErr := 0x10D

/-- `argus_machine_state_t`. -/
inductive MachineState
  | booting | unlocked | starting | running | decelerating | holding
  | emergencyStopped | recovering | faulted
deriving DecidableEq, Repr

/-- The entries of `argus_motion_ops_t` the core calls, with their arguments. -/
inductive Callback
  | enableDriver
  | disableDriver
  | setTargetRate (rpmMilli : Int) (forward : Bool)
  | stopImmediate
  | stopNormal
  | recover
  | getError
deriving DecidableEq, Repr

/-- `argus_motion_ops_t`: which entries are not NULL. -/
structure MotionOps where
  enableDriver : Bool
  disableDriver : Bool
  setTargetRate : Bool
  stopImmediate : Bool
  stopNormal : Bool
  recover : Bool
  getError : Bool
deriving DecidableEq, Repr

/-- `s_production_ops` (and the tests' `s_mock_ops`): every entry is set. -/
def productionOps : MotionOps := ⟨true, true, true, true, true, true, true⟩

def MotionOps.has (ops : MotionOps) : Callback → Bool
  | .enableDriver => ops.enableDriver
  | .disableDriver => ops.disableDriver
  | .setTargetRate _ _ => ops.setTargetRate
  | .stopImmediate => ops.stopImmediate
  | .stopNormal => ops.stopNormal
  | .recover => ops.recover
  | .getError => ops.getError

/-- `argus_state_core_t`. -/
structure StateCore where
  machineState : MachineState
  configuredTargetRpmMilli : Int
  requestedForward : Bool
  estopLatched : Bool
  estopResetDestination : MachineState
  faultCode : UInt32
  commandGeneration : UInt32
  lastRejectionReason : String
  ops : MotionOps
deriving DecidableEq, Repr

structure CoreCall where
  callback : Callback
  core : StateCore

structure CoreAnswer where
  result : UInt32
  core : StateCore

abbrev CoreProg := Prog CoreCall (fun _ => CoreAnswer) (EspErr × StateCore)

namespace StateCore

/-- `set_core_rejection_reason`; every text is shorter than the 64 bytes of the field. -/
def reject (core : StateCore) (reason : String) : StateCore :=
  { core with lastRejectionReason := reason }

/-- Call an entry of the operations table unless it is NULL. -/
def callback (core : StateCore) (c : Callback) (k : UInt32 → StateCore → CoreProg) : CoreProg :=
  if core.ops.has c then .ask ⟨c, core⟩ fun r => k r.result r.core else k espOk core

/-! ## Pure state core transition functions -/

def init (ops : MotionOps) : StateCore where
  machineState := .unlocked
  configuredTargetRpmMilli := 0
  requestedForward := true
  estopLatched := false
  estopResetDestination := .holding
  faultCode := 0
  commandGeneration := 1
  lastRejectionReason := "None"
  ops := ops

def setTarget (core : StateCore) (rpmMilli : Int) (forward : Bool) : CoreProg :=
  if core.estopLatched ∨ core.machineState = .emergencyStopped then
    .ret (espErrInvalidState, core.reject "Cannot set target while EMERGENCY_STOPPED")
  else if core.machineState = .faulted then
    .ret (espErrInvalidState, core.reject "Cannot set target while FAULTED")
  else if core.machineState = .decelerating then
    .ret (espErrInvalidState, core.reject "Cannot set target while DECELERATING")
  else if core.machineState = .recovering ∨ core.machineState = .booting then
    .ret (espErrInvalidState, core.reject "Cannot set target during BOOTING/RECOVERING")
  -- Range check: [0, 200000] mRPM (0 to 200 RPM)
  else if rpmMilli < 0 ∨ rpmMilli > 200000 then
    .ret (espErrInvalidArg, core.reject "Target RPM out of range [0, 200000]")
  else
    let core := { core with configuredTargetRpmMilli := rpmMilli, requestedForward := forward }
    if core.machineState = .starting ∨ core.machineState = .running then
      core.callback (.setTargetRate rpmMilli forward) fun err core =>
        if err ≠ espOk then
          .ret (err, { core with machineState := .faulted, faultCode := err }.reject
            "set_target_rate failed")
        else .ret (espOk, core)
    else .ret (espOk, core)

/-- The revalidation `start` and `recover` make after a callback. -/
def preempted (core : StateCore) (entryGen : UInt32) : Prop :=
  core.commandGeneration ≠ entryGen ∨ core.estopLatched ∨ core.machineState = .emergencyStopped

instance (core : StateCore) (entryGen : UInt32) : Decidable (core.preempted entryGen) :=
  inferInstanceAs (Decidable (_ ∨ _ ∨ _))

/-- The tail of `start`: final generation revalidation and the error path. -/
def startFinish (entryGen : UInt32) (err : EspErr) (core : StateCore) : CoreProg :=
  if core.preempted entryGen then
    .ret (espErrInvalidState, core.reject "Start aborted: E-stop latched during rate set")
  else if err ≠ espOk then
    .ret (err, { core with machineState := .faulted, faultCode := err }.reject
      "Lower layer enable/rate call failed during start")
  else .ret (err, core)

def start (core : StateCore) : CoreProg :=
  if core.estopLatched ∨ core.machineState = .emergencyStopped then
    .ret (espErrInvalidState, core.reject "Cannot start while EMERGENCY_STOPPED")
  else if core.machineState = .faulted then
    .ret (espErrInvalidState, core.reject "Cannot start while FAULTED")
  else if core.machineState = .decelerating then
    .ret (espErrInvalidState, core.reject "Cannot start while DECELERATING")
  else if core.machineState = .starting ∨ core.machineState = .running then
    .ret (espOk, core) -- Idempotent start
  else if core.configuredTargetRpmMilli ≤ 0 then
    .ret (espErrInvalidState, core.reject "Cannot start with zero setpoint")
  else
    let entryGen := core.commandGeneration
    let target := core.configuredTargetRpmMilli
    let fwd := core.requestedForward
    { core with machineState := .starting }.callback .enableDriver fun err core =>
      if core.preempted entryGen then
        .ret (espErrInvalidState, core.reject "Start aborted: E-stop latched during driver enable")
      else if err = espOk then
        core.callback (.setTargetRate target fwd) (startFinish entryGen)
      else startFinish entryGen err core

def stopNormal (core : StateCore) : CoreProg :=
  if core.machineState = .emergencyStopped ∨ core.machineState = .faulted then
    .ret (espErrInvalidState, core.reject "Cannot stop_normal while EMERGENCY_STOPPED/FAULTED")
  else if core.machineState = .unlocked ∨ core.machineState = .holding ∨
      core.machineState = .decelerating then
    .ret (espOk, core) -- Idempotent stop
  else
    { core with machineState := .decelerating }.callback .stopNormal fun err core =>
      if err ≠ espOk then
        .ret (err, { core with machineState := .faulted, faultCode := err }.reject
          "stop_normal lower-layer call failed")
      else .ret (err, core)

def unlock (core : StateCore) : CoreProg :=
  if core.machineState = .starting ∨ core.machineState = .running ∨
      core.machineState = .decelerating then
    .ret (espErrInvalidState, core.reject "Cannot unlock while motion is active/decelerating")
  else if core.machineState = .emergencyStopped ∨ core.machineState = .faulted then
    .ret (espErrInvalidState, core.reject "Cannot unlock while EMERGENCY_STOPPED/FAULTED")
  else if core.machineState = .unlocked then
    .ret (espOk, core) -- Idempotent unlock
  else
    { core with machineState := .unlocked }.callback .disableDriver fun err core =>
      .ret (err, core)

/-- What `estop` writes before it calls `stop_immediate`. -/
def latchEstop (core : StateCore) : StateCore :=
  { core with
    estopResetDestination := if core.machineState = .unlocked then .unlocked else .holding
    estopLatched := true
    commandGeneration := core.commandGeneration + 1
    machineState := .emergencyStopped }

def estop (core : StateCore) : CoreProg :=
  if core.machineState = .emergencyStopped then .ret (espOk, core) -- Idempotent E-stop
  else core.latchEstop.callback .stopImmediate fun _ core => .ret (espOk, core)

def resetEstop (core : StateCore) : CoreProg :=
  if core.machineState ≠ .emergencyStopped then
    .ret (espErrInvalidState, core.reject "Cannot reset E-stop when not in EMERGENCY_STOPPED state")
  else .ret (espOk, { core with estopLatched := false, machineState := core.estopResetDestination })

/-- The tail of `recover`, once `get_error` has answered. -/
def recoverFinish (recErr : EspErr) (errVal : UInt32) (core : StateCore) : CoreProg :=
  if recErr = espOk ∧ errVal = 0 then
    .ret (recErr, { core with faultCode := 0, machineState := .unlocked })
  else
    .ret (recErr, { core with
      machineState := .faulted
      faultCode := if errVal ≠ 0 then errVal else recErr }.reject
        "Recovery failed to clear lower-layer error")

def recover (core : StateCore) : CoreProg :=
  if core.machineState = .starting ∨ core.machineState = .running ∨
      core.machineState = .decelerating then
    .ret (espErrInvalidState, core.reject "Cannot recover while motion active")
  else
    let entryGen := core.commandGeneration
    { core with machineState := .recovering }.callback .recover fun recErr core =>
      if core.preempted entryGen then
        .ret (espErrInvalidState, core.reject "Recovery aborted: E-stop latched during recovery")
      else core.callback .getError (recoverFinish recErr)

/-- The first step of `evaluate_periodic`: lower-layer errors. -/
def evaluateError (core : StateCore) (latchedError : UInt32) : StateCore :=
  if latchedError ≠ 0 ∧ core.machineState ≠ .faulted ∧ core.machineState ≠ .recovering then
    { core with faultCode := latchedError, machineState := .faulted }
  else core

/-- `STARTING -> RUNNING` when the rate reaches the configured target and the ramp settles. -/
def evaluateStarting (core : StateCore) (appliedRpm generatedRpm : Int) (rampActive : Bool) :
    StateCore :=
  if core.machineState = .starting ∧ appliedRpm = core.configuredTargetRpmMilli ∧
      generatedRpm = core.configuredTargetRpmMilli ∧ rampActive = false then
    { core with machineState := .running }
  else core

/-- `DECELERATING -> HOLDING` when applied and generated rates drop to zero. -/
def evaluateDecelerating (core : StateCore) (appliedRpm generatedRpm : Int) : StateCore :=
  if core.machineState = .decelerating ∧ appliedRpm = 0 ∧ generatedRpm = 0 then
    { core with machineState := .holding }
  else core

def evaluatePeriodic (core : StateCore) (appliedRpm generatedRpm : Int) (rampActive : Bool)
    (latchedError : UInt32) : StateCore :=
  ((core.evaluateError latchedError).evaluateStarting appliedRpm generatedRpm rampActive
    ).evaluateDecelerating appliedRpm generatedRpm

end StateCore

end Argus
